-- The newest group of a stream: after any traffic of the groups before it, some
-- of its frames arrive, and then some of its shards. Its missing frames come
-- back in time only if the shards with the first indices arrive first.
import Multiplex.ScreenSession.RepairRuns

namespace multiplex_screen_session

open multiplex_screen_protocol multiplex_screen_host

variable {st : VideoStream} {g : Nat} {l : List Arrival} {s : Surface} {outs : List Repaired}

/-! ## The group is not forgotten -/

/-- After arrivals of a group and of groups before it. -/
structure Newest (st : VideoStream) (g : Nat) (l : List Arrival) (s : Surface)
    (outs : List Repaired) : Prop where
  kept : Kept st s
  frames : ∀ e ∈ s.frames.entries, e.1 < g * st.n + 1 + st.n
  parity : ∀ e ∈ s.parity.entries, e.1 ≤ g
  watched : Watched st g l s outs
  emitted : EmitsSent st outs

variable {g' : Nat}

theorem sequences_lt (hle : g' ≤ g) {q : Nat} (hq : q ∈ st.sequences g') :
    q < g * st.n + 1 + st.n := by
  rw [mem_sequences] at hq
  have : g' * st.n ≤ g * st.n := Nat.mul_le_mul_right _ hle
  omega

theorem newest_frame (hn : st.n ≤ REMEMBERED_FRAMES) (h : Newest st g l s outs) {q : Nat}
    (h1 : 1 ≤ q) (h2 : q ≤ st.groups * st.n) {bytes : List UInt8}
    (henc : (st.sent q).encode = .ok bytes) (hle : g' ≤ g) (hq : q ∈ st.sequences g') :
    Newest st g (l ++ [.Frame (st.sent q)]) (s.frame (st.sent q) bytes).1
      (outs ++ [(s.frame (st.sent q) bytes).2]) := by
  have hseq := st.numbered q h1 h2
  have hkeys : ∀ e ∈ (s.frames.insert q bytes).entries, e.1 < g * st.n + 1 + st.n := by
    intro e he
    rcases SortedMap.mem_insert.mp he with rfl | ⟨hold, -⟩
    · exact sequences_lt hle hq
    · exact h.frames e hold
  have hnone : (s.frame (st.sent q) bytes).2.frames = [] := rfl
  refine ⟨kept_frame h.kept h1 h2 henc, ?_, ?_, ?_, ?_⟩
  · intro e he
    rw [frame_frames, hseq] at he
    exact hkeys e (SortedMap.mem_of_mem_keepLast he)
  · rw [frame_parity]
    exact h.parity
  · apply watched_frame h.watched h1 h2
    intro q' hq'
    rw [frame_frames, hseq]
    -- only frames of the group are as late as one of its frames
    apply SortedMap.get?_keepLast (st.whole g)
    · intro e he hlate
      rw [mem_sequences] at hq'
      exact List.mem_toFinset.mpr (mem_sequences.mpr ⟨by omega, hkeys e he⟩)
    · rw [card_whole]
      exact hn
  · unfold EmitsSent
    rw [emitted_append, hnone, List.append_nil]
    exact h.emitted

theorem newest_parity (h : Newest st g l s outs) (hle : g' ≤ g) {p : Parity}
    (hgroup : p.group.toNat = g') : (s.keep_shard p).parity.get? g =
      (s.parity.insert g' (push_shard (s.held g') p.index.toNat p.payload)).get? g := by
  rw [keep_shard_parity, hgroup]
  apply SortedMap.get?_keepLast {g}
  · intro e he hlate
    rw [Finset.mem_singleton]
    rcases SortedMap.mem_insert.mp he with rfl | ⟨hold, -⟩
    · exact le_antisymm hle hlate
    · exact le_antisymm (h.parity e hold) hlate
  · rw [Finset.card_singleton]
    decide

theorem viewed_shard {p : Parity} (hgroup : p.group.toNat = g') {r : Surface × Repaired}
    (hown : g' = g → st.view r.1 g = (st.view s g).arrive (st.whole g) (.shard p.index.toNat))
    (hother : g' ≠ g → st.view r.1 g = st.view s g) :
    st.view r.1 g = match st.piece g (.Shard p) with
      | some piece => (st.view s g).arrive (st.whole g) piece
      | none => st.view s g := by
  simp only [VideoStream.piece, hgroup]
  by_cases hg' : g' = g
  · rw [if_pos hg']
    exact hown hg'
  · rw [if_neg hg']
    exact hother hg'

theorem newest_shard (h : Newest st g l s outs) (hg : g' < st.groups) (hle : g' ≤ g) {p : Parity}
    (hp : p ∈ st.parity g') :
    Newest st g (l ++ [.Shard p]) (s.record_parity p).1 (outs ++ [(s.record_parity p).2]) := by
  obtain ⟨k, length, packed, hc⟩ := coded_of_parity (List.ne_nil_of_mem hp)
  have hgroup := (hc.shard hg hp).group
  have hkept := kept_keep_shard h.kept hp hgroup
  have hkeys : ∀ e ∈ (s.parity.insert g' (push_shard (s.held g') p.index.toNat p.payload)).entries,
      e.1 ≤ g := by
    intro e he
    rcases SortedMap.mem_insert.mp he with rfl | ⟨hold, -⟩
    · exact hle
    · exact h.parity e hold
  have hnewest := newest_parity h hle hgroup
  have hcases : Recorded st s g' p (s.record_parity p) ∨ g' ≠ g ∧
      s.record_parity p = (s.keep_shard p).age_gaps ⟨p.surface, [], []⟩ := by
    by_cases hg' : g' = g
    · subst hg'
      exact .inl (recorded h.kept hg hp (by rw [hnewest, SortedMap.get?_insert_self]))
    · exact (recorded_or_dropped h.kept hg hp).imp id fun hdropped => ⟨hg', hdropped⟩
  rcases hcases with hrec | ⟨hne, hdropped⟩
  · obtain ⟨hemits, hhere⟩ := hrec.emits hc hg
    refine ⟨hrec.kept hkept hg, ?_, ?_, ?_, h.emitted.append hg hemits⟩
    · intro e he
      rcases hrec.frames_mem hc hg he with ⟨bytes, hold⟩ | hq
      · exact h.frames (e.1, bytes) hold
      · exact sequences_lt hle hq
    · intro e he
      rcases hrec.parity_mem hgroup he with heq | hold
      · exact heq ▸ hle
      · exact h.parity e hold
    · apply watched_shard h.watched (viewed_shard hgroup ?_ ?_) hhere
      · rintro rfl
        apply hrec.view_own hc
        rw [hnewest, SortedMap.get?_insert_self]
      · intro hne
        apply hrec.view_other hc (Ne.symm hne)
        rw [hnewest, SortedMap.get?_insert_of_ne (Ne.symm hne)]
  · rw [hdropped]
    have hnone : ((s.keep_shard p).age_gaps ⟨p.surface, [], []⟩).2.frames = [] := rfl
    refine ⟨⟨hkept.frames, hkept.parity⟩, h.frames, ?_, ?_, ?_⟩
    · intro e he
      change e ∈ (s.keep_shard p).parity.entries at he
      rw [keep_shard_parity, hgroup] at he
      exact hkeys e (SortedMap.mem_of_mem_keepLast he)
    · apply watched_shard h.watched (viewed_shard hgroup (fun hg' => absurd hg' hne) fun _ => ?_)
      · intro q
        rw [hnone]
        simp
        rfl
      · unfold VideoStream.view
        simp
        refine ⟨rfl, ?_⟩
        change (((s.keep_shard p).parity.get? g).getD []).map Prod.fst = _
        rw [hnewest, SortedMap.get?_insert_of_ne (Ne.symm hne)]
        rfl
    · unfold EmitsSent
      rw [emitted_append, hnone, List.append_nil]
      exact h.emitted

/-- Arrivals of a group and of groups before it. -/
def UpTo (st : VideoStream) (g : Nat) (l : List Arrival) : Prop :=
  ∀ a ∈ l, st.Sends a ∧ st.groupOf a ≤ g

theorem newest_arrive (hn : st.n ≤ REMEMBERED_FRAMES) (h : Newest st g l s outs) {a : Arrival}
    (ha : st.Sends a) (hle : st.groupOf a ≤ g) :
    Newest st g (l ++ [a]) (s.arrive a).1 (outs ++ [(s.arrive a).2]) := by
  cases a with
  | Frame frame =>
    obtain ⟨q, h1, h2, rfl, bytes, hbytes⟩ := ha
    obtain ⟨g', hg', hq⟩ := exists_group h1 h2
    rw [groupOf_frame hg' hq] at hle
    simp only [Surface.arrive, hbytes]
    exact newest_frame hn h h1 h2 hbytes hle hq
  | Shard p =>
    obtain ⟨g', hg', hp⟩ := ha
    change p.group.toNat ≤ g at hle
    rw [(shard_of_parity hg' hp).1] at hle
    exact newest_shard h hg' hle hp

theorem newest_run (hn : st.n ≤ REMEMBERED_FRAMES) (l : List Arrival) (hl : UpTo st g l) :
    Newest st g l (Surface.default.run l).1 (Surface.default.run l).2 := by
  induction l using List.reverseRecOn with
  | nil =>
    refine ⟨kept_default st, ?_, ?_, watched_default st g, ?_⟩
    · intro e he
      cases he
    · intro e he
      cases he
    · intro f hf
      cases hf
  | append_singleton l a ih =>
    have h := ih fun b hb => hl b (List.mem_append_left _ hb)
    obtain ⟨ha, hle⟩ := hl a (by simp)
    rw [run_append]
    exact newest_arrive hn h ha hle

/-! ## Gaps -/

theorem mem_foldl_push_gap (news : List Nat) :
    ∀ (gaps : List Nat) (x : Nat), x ∈ news.foldl push_gap gaps ↔ x ∈ gaps ∨ x ∈ news := by
  induction news with
  | nil => simp
  | cons y news ih =>
    intro gaps x
    have hpush : x ∈ push_gap gaps y ↔ x ∈ gaps ∨ x = y := by
      unfold push_gap
      split
      · rename_i hin
        constructor
        · exact .inl
        · rintro (h | rfl)
          · exact h
          · simpa using hin
      · simp
    rw [List.foldl_cons, ih, hpush, List.mem_cons, or_assoc]

theorem notice_gaps_highest (s : Surface) (sequence : Nat) :
    (s.notice_gaps sequence).highest = max s.highest sequence := by
  unfold Surface.notice_gaps
  split
  · simp only
    omega
  · omega

theorem mem_notice_gaps {s : Surface} {sequence x : Nat} :
    x ∈ (s.notice_gaps sequence).gaps ↔ x ∈ s.gaps ∨ s.highest < x ∧ x < sequence := by
  unfold Surface.notice_gaps
  split
  · simp [mem_foldl_push_gap]
    apply or_congr_right
    omega
  · constructor
    · exact .inl
    · rintro (h | h)
      · exact h
      · omega

theorem frame_gaps (s : Surface) (f : VideoFrame) (bytes : List UInt8) :
    (s.frame f bytes).1.highest = max s.highest f.sequence.toNat ∧
      (s.frame f bytes).1.group = s.group ∧ ∀ x, (x ∈ (s.frame f bytes).1.gaps ↔
          (x ∈ s.gaps ∨ s.highest < x ∧ x < f.sequence.toNat) ∧ x ≠ f.sequence.toNat ∧
            ¬GivenUp (patienceOf s.group) x (max s.highest f.sequence.toNat)) ∧
        (x ∈ (s.frame f bytes).2.lost ↔
          (x ∈ s.gaps ∨ s.highest < x ∧ x < f.sequence.toNat) ∧ x ≠ f.sequence.toNat ∧
            GivenUp (patienceOf s.group) x (max s.highest f.sequence.toNat)) := by
  have hhighest := notice_gaps_highest s f.sequence.toNat
  refine ⟨hhighest, notice_gaps_group s _, fun x => ?_⟩
  have haged : ∀ x, ({ (s.notice_gaps f.sequence.toNat).drop_gap f.sequence.toNat with
      frames := (((s.notice_gaps f.sequence.toNat).drop_gap f.sequence.toNat).frames.insert
        f.sequence.toNat bytes).keepLast REMEMBERED_FRAMES } : Surface).aged x = true ↔
      GivenUp (patienceOf s.group) x (max s.highest f.sequence.toNat) := by
    intro x
    unfold Surface.aged Surface.patience GivenUp patienceOf Surface.drop_gap
    simp [hhighest]
  constructor
  · simp [Surface.frame, Surface.age_gaps, ← Bool.not_eq_true, haged]
    simp [Surface.drop_gap, mem_notice_gaps, and_assoc]
  · simp [Surface.frame, Surface.age_gaps, haged]
    simp [Surface.drop_gap, mem_notice_gaps, and_assoc]

/-- What all arrivals have reported lost. -/
def lostIn (outs : List Repaired) : List Nat := outs.flatMap Repaired.lost

theorem mem_lostIn_append {x : Nat} (outs : List Repaired) (out : Repaired) :
    x ∈ lostIn (outs ++ [out]) ↔ x ∈ lostIn outs ∨ x ∈ out.lost := by
  simp [lostIn]

def Arrival.isShard : Arrival → Bool
  | .Frame _ => false
  | .Shard _ => true

/-- The group size that the shards so far have declared. -/
def VideoStream.declared (st : VideoStream) (l : List Arrival) : Nat :=
  if l.any Arrival.isShard then st.n else 0

structure Unnoticed (st : VideoStream) (g : Nat) (l : List Arrival) (s : Surface)
    (outs : List Repaired) : Prop where
  highest : s.highest ≤ g * st.n
  gaps : ∀ x ∈ s.gaps, x ≤ g * st.n
  lost : ∀ x ∈ lostIn outs, x ≤ g * st.n
  group : s.group = st.declared l

theorem declared_append (l : List Arrival) (a : Arrival) :
    st.declared (l ++ [a]) = if a.isShard then st.n else st.declared l := by
  unfold VideoStream.declared
  rw [List.any_append]
  cases ha : a.isShard <;> cases l.any Arrival.isShard <;> simp [ha]

theorem unnoticed_run (hn : st.n ≤ REMEMBERED_FRAMES) (l : List Arrival)
    (hl : ∀ a ∈ l, st.Sends a ∧ st.groupOf a < g) :
    Unnoticed st g l (Surface.default.run l).1 (Surface.default.run l).2 := by
  induction l using List.reverseRecOn with
  | nil =>
    refine ⟨Nat.zero_le _, ?_, ?_, rfl⟩
    · intro x hx
      cases hx
    · intro x hx
      cases hx
  | append_singleton l a ih =>
    have hl' : ∀ b ∈ l, st.Sends b ∧ st.groupOf b < g := fun b hb => hl b (List.mem_append_left _ hb)
    have h := ih hl'
    have hkept := (newest_run (g := g) hn l fun b hb => ⟨(hl' b hb).1, (hl' b hb).2.le⟩).kept
    obtain ⟨ha, hlt⟩ := hl a (by simp)
    rw [run_append]
    simp only [Surface.run]
    generalize (Surface.default.run l).1 = s at h hkept
    generalize (Surface.default.run l).2 = outs at h
    cases a with
    | Frame frame =>
      obtain ⟨q, h1, h2, rfl, bytes, hbytes⟩ := ha
      obtain ⟨g', hg', hq⟩ := exists_group h1 h2
      rw [groupOf_frame hg' hq] at hlt
      have hqle : q ≤ g * st.n := by
        rw [mem_sequences] at hq
        have : (g' + 1) * st.n ≤ g * st.n := Nat.mul_le_mul_right _ hlt
        rw [Nat.add_mul, Nat.one_mul] at this
        omega
      obtain ⟨hhighest, hgroup, hgaps⟩ := frame_gaps s (st.sent q) bytes
      rw [st.numbered q h1 h2] at hhighest hgaps
      simp only [Surface.arrive, hbytes]
      refine ⟨?_, ?_, ?_, ?_⟩
      · rw [hhighest]
        exact max_le h.highest hqle
      · intro x hx
        rcases ((hgaps x).1.mp hx).1 with hx | hx
        · exact h.gaps x hx
        · omega
      · intro x hx
        rcases (mem_lostIn_append outs _).mp hx with hx | hx
        · exact h.lost x hx
        · rcases ((hgaps x).2.mp hx).1 with hx | hx
          · exact h.gaps x hx
          · omega
      · rw [hgroup, h.group, declared_append]
        rfl
    | Shard p =>
      obtain ⟨g', hg', hp⟩ := ha
      obtain ⟨hhighest, hgroup, gaps, hsub, -, hgaps, hlost⟩ := record_gaps hkept hg' hp
      simp only [Surface.arrive]
      refine ⟨?_, ?_, ?_, ?_⟩
      · rw [hhighest]
        exact h.highest
      · intro x hx
        rw [hgaps] at hx
        exact h.gaps x (hsub x (List.mem_of_mem_filter hx))
      · intro x hx
        rcases (mem_lostIn_append outs _).mp hx with hx | hx
        · exact h.lost x hx
        · rw [hlost] at hx
          exact h.gaps x (hsub x (List.mem_of_mem_filter hx))
      · rw [hgroup, declared_append]
        rfl

/-! ## The frames of the group -/

/-- Where a missing frame of the group stands, after some others of the group have arrived. -/
structure Noticed (st : VideoStream) (g patience q : Nat) (arrived : List VideoFrame) (s : Surface)
    (outs : List Repaired) : Prop where
  top : ∀ f ∈ arrived, f.sequence.toNat ≤ s.highest
  reached : s.highest ≤ g * st.n ∨ ∃ f ∈ arrived, f.sequence.toNat = s.highest
  gap : q ∈ s.gaps ↔ q < s.highest ∧ ¬GivenUp patience q s.highest
  lost : q ∈ lostIn outs ↔ q < s.highest ∧ GivenUp patience q s.highest

theorem GivenUp.mono {patience q top top' : Nat} (h : GivenUp patience q top) (hle : top ≤ top') :
    GivenUp patience q top' := Nat.lt_of_lt_of_le h hle

theorem noticed_frame {patience q : Nat} {arrived : List VideoFrame}
    (h : Noticed st g patience q arrived s outs) (hgroup : patienceOf s.group = patience)
    (hq : q ∈ st.sequences g) (hnot : ∀ f ∈ arrived, f.sequence.toNat ≠ q) {f : VideoFrame}
    (hfq : f.sequence.toNat ≠ q) (bytes : List UInt8) :
    Noticed st g patience q (arrived ++ [f]) (s.frame f bytes).1
      (outs ++ [(s.frame f bytes).2]) := by
  obtain ⟨hhighest, -, hgaps⟩ := frame_gaps s f bytes
  obtain ⟨hgap, hlost⟩ := hgaps q
  rw [hgroup] at hgap hlost
  rw [mem_sequences] at hq
  have hne : q ≠ s.highest := by
    rcases h.reached with hle | ⟨f', hf', heq⟩
    · omega
    · rw [← heq]
      exact (hnot f' hf').symm
  have hmono : GivenUp patience q s.highest → GivenUp patience q (max s.highest f.sequence.toNat) :=
    fun hup => hup.mono (le_max_left _ _)
  refine ⟨?_, ?_, ?_, ?_⟩
  · intro f' hf'
    rw [hhighest]
    rcases List.mem_append.mp hf' with hf' | hf'
    · exact le_trans (h.top f' hf') (le_max_left _ _)
    · rw [List.mem_singleton.mp hf']
      exact le_max_right _ _
  · rw [hhighest]
    rcases le_total f.sequence.toNat s.highest with hle | hle
    · rw [max_eq_left hle]
      refine h.reached.imp id ?_
      rintro ⟨f', hf', heq⟩
      exact ⟨f', List.mem_append_left _ hf', heq⟩
    · rw [max_eq_right hle]
      exact .inr ⟨f, by simp, rfl⟩
  · rw [hgap, hhighest, h.gap]
    constructor
    · rintro ⟨hopen, -, hup⟩
      exact ⟨by omega, hup⟩
    · rintro ⟨hlt, hup⟩
      refine ⟨?_, Ne.symm hfq, hup⟩
      by_cases hbelow : q < s.highest
      · exact .inl ⟨hbelow, fun h' => hup (hmono h')⟩
      · exact .inr (by omega)
  · rw [mem_lostIn_append, hlost, hhighest, h.lost, h.gap]
    constructor
    · rintro (⟨hlt, hup⟩ | ⟨hopen, -, hup⟩)
      · exact ⟨by omega, hmono hup⟩
      · exact ⟨by omega, hup⟩
    · rintro ⟨hlt, hup⟩
      by_cases hbelow : q < s.highest
      · by_cases hold : GivenUp patience q s.highest
        · exact .inl ⟨hbelow, hold⟩
        · exact .inr ⟨.inl ⟨hbelow, hold⟩, Ne.symm hfq, hup⟩
      · exact .inr ⟨.inr (by omega), Ne.symm hfq, hup⟩

/-- The frames of the group that do not arrive. -/
def VideoStream.lostOf (st : VideoStream) (g : Nat) (arrived : List VideoFrame) : List Nat :=
  (st.sequences g).filter fun q => decide (st.sent q ∉ arrived)

/-- Some frames of the group arrive, each of which could be sent. -/
def OfGroup (st : VideoStream) (g : Nat) (arrived : List VideoFrame) : Prop :=
  ∀ f ∈ arrived, (∃ q ∈ st.sequences g, f = st.sent q) ∧ ∃ bytes, f.encode = .ok bytes

theorem lostOf_ne {arrived : List VideoFrame} {q : Nat} (hg : g < st.groups)
    (hof : OfGroup st g arrived) (hq : q ∈ st.lostOf g arrived) :
    ∀ f ∈ arrived, f.sequence.toNat ≠ q := by
  intro f hf heq
  obtain ⟨⟨q', hq', rfl⟩, -⟩ := hof f hf
  obtain ⟨h1, h2⟩ := le_of_mem_sequences hg hq'
  rw [st.numbered q' h1 h2] at heq
  subst heq
  exact of_decide_eq_true (List.mem_filter.mp hq).2 hf

theorem noticed_run {prior : List Arrival} (h : Unnoticed st g prior s outs) (hg : g < st.groups)
    (arrived : List VideoFrame) (hof : OfGroup st g arrived) {q : Nat}
    (hq : q ∈ st.lostOf g arrived) :
    Noticed st g (patienceOf (st.declared prior)) q arrived (s.run (arrived.map .Frame)).1
      (outs ++ (s.run (arrived.map .Frame)).2) ∧
      (s.run (arrived.map .Frame)).1.group = st.declared prior := by
  induction arrived using List.reverseRecOn with
  | nil =>
    have hqg : g * st.n < q := by
      have := mem_sequences.mp (List.mem_of_mem_filter hq)
      omega
    have hhigh := h.highest
    refine ⟨⟨by simp, .inl h.highest, ?_, ?_⟩, h.group⟩
    · constructor
      · intro hgap
        have := h.gaps q hgap
        omega
      · rintro ⟨hlt, -⟩
        change q < s.highest at hlt
        omega
    · simp [Surface.run]
      constructor
      · intro hlost
        have := h.lost q hlost
        omega
      · omega
  | append_singleton arrived f ih =>
    have hof' : OfGroup st g arrived := fun f' hf' => hof f' (List.mem_append_left _ hf')
    have hne := lostOf_ne hg hof hq
    have hq' : q ∈ st.lostOf g arrived := by
      obtain ⟨hin, hnot⟩ := List.mem_filter.mp hq
      refine List.mem_filter.mpr ⟨hin, decide_eq_true fun hold => ?_⟩
      exact of_decide_eq_true hnot (List.mem_append_left _ hold)
    obtain ⟨hnoticed, hgroup⟩ := ih hof' hq'
    obtain ⟨-, bytes, hbytes⟩ := hof f (by simp)
    rw [List.map_append, List.map_singleton, run_append]
    simp only [Surface.run, Surface.arrive, hbytes]
    refine ⟨?_, ?_⟩
    · rw [← List.append_assoc]
      exact noticed_frame hnoticed (by rw [hgroup]) (List.mem_of_mem_filter hq)
        (fun f' hf' => hne f' (List.mem_append_left _ hf')) (hne f (by simp)) bytes
    · rw [(frame_gaps _ f bytes).2.1, hgroup]

/-! ## The shards of the group -/

/-- Traffic of earlier groups, then frames of the group, and then shards of it. -/
def groupRun (prior : List Arrival) (arrived : List VideoFrame) (delivered : List Parity) :
    List Arrival :=
  prior ++ arrived.map .Frame ++ delivered.map .Shard

/-- What can have arrived when a group is repaired. -/
structure GroupRun (st : VideoStream) (g : Nat) (prior : List Arrival) (arrived : List VideoFrame)
    (delivered : List Parity) : Prop where
  group : g < st.groups
  remembered : st.n ≤ REMEMBERED_FRAMES
  earlier : ∀ a ∈ prior, st.Sends a ∧ st.groupOf a < g
  frames : OfGroup st g arrived
  shards : ∀ p ∈ delivered, p ∈ st.parity g
  once : delivered.Nodup

section Runs

variable {prior : List Arrival} {arrived : List VideoFrame} {delivered : List Parity}

section
variable (h : GroupRun st g prior arrived delivered)
include h

theorem GroupRun.take (m : Nat) : GroupRun st g prior arrived (delivered.take m) :=
  ⟨h.group, h.remembered, h.earlier, h.frames, fun p hp => h.shards p (List.mem_of_mem_take hp),
    h.once.sublist (List.take_sublist _ _)⟩

theorem GroupRun.upTo : UpTo st g (groupRun prior arrived delivered) := by
  intro a ha
  unfold groupRun at ha
  rw [List.mem_append, List.mem_append] at ha
  rcases ha with (ha | ha) | ha
  · exact ⟨(h.earlier a ha).1, (h.earlier a ha).2.le⟩
  · obtain ⟨f, hf, rfl⟩ := List.mem_map.mp ha
    obtain ⟨⟨q, hq, rfl⟩, hbytes⟩ := h.frames f hf
    obtain ⟨h1, h2⟩ := le_of_mem_sequences h.group hq
    exact ⟨⟨q, h1, h2, rfl, hbytes⟩, (groupOf_frame h.group hq).le⟩
  · obtain ⟨p, hp, rfl⟩ := List.mem_map.mp ha
    have hpar := h.shards p hp
    exact ⟨⟨g, h.group, hpar⟩, (shard_of_parity h.group hpar).1.le⟩

theorem GroupRun.pieces :
    st.pieces g (groupRun prior arrived delivered) =
      (arrived.map fun f => f.sequence.toNat).map .frame ++
        (delivered.map fun p => p.index.toNat).map .shard := by
  unfold groupRun VideoStream.pieces
  rw [List.filterMap_append, List.filterMap_append]
  have hprior : prior.filterMap (st.piece g) = [] := by
    apply pieces_eq_nil fun a ha => (h.earlier a ha).1
    intro hg
    obtain ⟨a, ha, heq⟩ := List.mem_map.mp hg
    exact absurd heq (h.earlier a ha).2.ne
  have harrived : (arrived.map Arrival.Frame).filterMap (st.piece g) =
      (arrived.map fun f => f.sequence.toNat).map .frame := by
    rw [List.filterMap_map, List.map_map, ← List.filterMap_eq_map]
    apply List.filterMap_congr
    intro f hf
    obtain ⟨⟨q, hq, rfl⟩, -⟩ := h.frames f hf
    obtain ⟨h1, h2⟩ := le_of_mem_sequences h.group hq
    simp [VideoStream.piece, st.numbered q h1 h2, if_pos hq]
  have hdelivered : (delivered.map Arrival.Shard).filterMap (st.piece g) =
      (delivered.map fun p => p.index.toNat).map .shard := by
    rw [List.filterMap_map, List.map_map, ← List.filterMap_eq_map]
    apply List.filterMap_congr
    intro p hp
    have hpar := h.shards p hp
    simp [VideoStream.piece, (shard_of_parity h.group hpar).1]
  rw [hprior, harrived, hdelivered, List.nil_append]

theorem GroupRun.indices_nodup : (delivered.map fun p => p.index.toNat).Nodup := by
  apply List.Nodup.map_on _ h.once
  intro p hp p' hp' heq
  have hpar := h.shards p hp
  obtain ⟨k, length, packed, hc⟩ := coded_of_parity (List.ne_nil_of_mem hpar)
  exact hc.shard_unique hpar (h.shards p' hp') (UInt8.toNat_inj.mp heq)

theorem GroupRun.lost_eq :
    (st.lostOf g arrived).toFinset =
      st.whole g \ (arrived.map fun f => f.sequence.toNat).toFinset := by
  ext q
  simp only [VideoStream.lostOf, VideoStream.whole, List.mem_toFinset, List.mem_filter,
    decide_eq_true_eq, Finset.mem_sdiff, List.mem_map, not_exists, not_and]
  refine and_congr_right fun hq => ?_
  obtain ⟨h1, h2⟩ := le_of_mem_sequences h.group hq
  constructor
  · intro hnot f hf heq
    obtain ⟨⟨q', hq', rfl⟩, -⟩ := h.frames f hf
    obtain ⟨h1', h2'⟩ := le_of_mem_sequences h.group hq'
    rw [st.numbered q' h1' h2'] at heq
    exact hnot (heq ▸ hf)
  · intro hnot hin
    exact hnot _ hin (st.numbered q h1 h2)

theorem GroupRun.lost_card :
    (st.whole g \ (arrived.map fun f => f.sequence.toNat).toFinset).card =
      (st.lostOf g arrived).length := by
  rw [← h.lost_eq, List.toFinset_card_of_nodup]
  exact (List.nodup_range').filter _

end

variable {q : Nat}

theorem GroupRun.emitted_iff (h : GroupRun st g prior arrived delivered)
    (hq : q ∈ st.lostOf g arrived) :
    st.sent q ∈ emitted (VideoRepair.default.run (groupRun prior arrived delivered)).2 ↔
      Closed (st.whole g) (st.pieces g (groupRun prior arrived delivered)) := by
  have hnewest := newest_run h.remembered _ h.upTo
  have hin := List.mem_of_mem_filter hq
  obtain ⟨h1, h2⟩ := le_of_mem_sequences h.group hin
  have hframes : framesOf (st.pieces g (groupRun prior arrived delivered)) =
      (arrived.map fun f => f.sequence.toNat).toFinset := by
    rw [h.pieces, framesOf_first]
  have hqnot : q ∉ framesOf (st.pieces g (groupRun prior arrived delivered)) := by
    rw [hframes, List.mem_toFinset, List.mem_map]
    rintro ⟨f, hf, heq⟩
    exact lostOf_ne h.group h.frames hq f hf heq
  have hhere : st.sent q ∈ emitted (VideoRepair.default.run (groupRun prior arrived delivered)).2 ↔
      q ∈ (Group.run (st.whole g) (st.pieces g (groupRun prior arrived delivered))).present := by
    rw [emitted_run fun a ha => (h.upTo a ha).1, ← hnewest.watched.view, mem_present,
      hnewest.watched.here q hin]
    constructor
    · exact fun hout => ⟨hin, .inr ⟨_, hout, st.numbered q h1 h2⟩⟩
    · rintro ⟨-, ⟨f, hf, hfq⟩ | ⟨f, hf, hfq⟩⟩
      · exfalso
        apply hqnot
        rw [mem_framesOf]
        refine List.mem_filterMap.mpr ⟨_, hf, ?_⟩
        simp only [VideoStream.piece, hfq, if_pos hin]
      · obtain ⟨q', h1', h2', rfl⟩ := hnewest.emitted f hf
        rw [st.numbered q' h1' h2'] at hfq
        exact hfq ▸ hf
  rw [hhere]
  have hmissing : ¬st.whole g ⊆ framesOf (st.pieces g (groupRun prior arrived delivered)) :=
    fun hall => hqnot (hall (List.mem_toFinset.mpr hin))
  rcases run_cases _ (framesOf_pieces st g _) hmissing with ⟨hclosed, hwhole⟩ | ⟨hopen, hwait⟩
  · rw [hwhole]
    exact iff_of_true (List.mem_toFinset.mpr hin) hclosed
  · rw [hwait.present]
    exact iff_of_false hqnot hopen

theorem GroupRun.closed_iff (h : GroupRun st g prior arrived delivered) :
    Closed (st.whole g) (st.pieces g (groupRun prior arrived delivered)) ↔
      ∃ j, 0 < j ∧ j ≤ delivered.length ∧ (st.lostOf g arrived).length ≤ j ∧
        ∀ p ∈ delivered.take j, p.index.toNat < j := by
  rw [h.pieces, closed_first_iff _ _ h.indices_nodup, h.lost_card]
  simp [← List.map_take]

/-- A missing frame is given up once some frame that arrived is this far beyond it. -/
def Beyond (patience q : Nat) (arrived : List VideoFrame) : Prop :=
  ∃ f ∈ arrived, q < f.sequence.toNat ∧ GivenUp patience q f.sequence.toNat

theorem Noticed.beyond_iff {patience : Nat} (h : Noticed st g patience q arrived s outs)
    (hq : q ∈ st.sequences g) (patience' : Nat) :
    (q < s.highest ∧ GivenUp patience' q s.highest) ↔ Beyond patience' q arrived := by
  constructor
  · rintro ⟨hlt, hup⟩
    rcases h.reached with hle | ⟨f, hf, heq⟩
    · rw [mem_sequences] at hq
      omega
    · exact ⟨f, hf, heq ▸ hlt, heq ▸ hup⟩
  · rintro ⟨f, hf, hlt, hup⟩
    have := h.top f hf
    exact ⟨by omega, hup.mono this⟩

/-- The surface after the frames of the group, and what it has put out by then. -/
def afterFrames (prior : List Arrival) (arrived : List VideoFrame) : Surface × List Repaired :=
  Surface.default.run (prior ++ arrived.map .Frame)

theorem GroupRun.noticed (h : GroupRun st g prior arrived delivered)
    (hq : q ∈ st.lostOf g arrived) :
    Noticed st g (patienceOf (st.declared prior)) q arrived (afterFrames prior arrived).1
      (afterFrames prior arrived).2 := by
  unfold afterFrames
  rw [run_append]
  exact (noticed_run (unnoticed_run h.remembered prior h.earlier) h.group arrived h.frames hq).1

theorem lostIn_groupRun (prior : List Arrival) (arrived : List VideoFrame) (delivered : List Parity) :
    lostIn (Surface.default.run (groupRun prior arrived delivered)).2 =
      lostIn (afterFrames prior arrived).2 ++
        lostIn ((afterFrames prior arrived).1.run (delivered.map .Shard)).2 := by
  unfold groupRun afterFrames
  rw [run_append Surface.default (prior ++ arrived.map Arrival.Frame) (delivered.map Arrival.Shard)]
  simp [lostIn]

theorem GroupRun.lost_before (h : GroupRun st g prior arrived delivered)
    (hq : q ∈ st.lostOf g arrived) (hbeyond : Beyond (patienceOf (st.declared prior)) q arrived) :
    q ∈ lostIn (Surface.default.run (groupRun prior arrived delivered)).2 := by
  have hnoticed := h.noticed hq
  rw [lostIn_groupRun, List.mem_append, hnoticed.lost,
    hnoticed.beyond_iff (List.mem_of_mem_filter hq)]
  exact .inl hbeyond

theorem GroupRun.kept (h : GroupRun st g prior arrived delivered) :
    Kept st (Surface.default.run (groupRun prior arrived delivered)).1 :=
  (newest_run h.remembered _ h.upTo).kept

theorem groupRun_nil (prior : List Arrival) (arrived : List VideoFrame) :
    groupRun prior arrived [] = prior ++ arrived.map .Frame := by
  simp [groupRun]

theorem GroupRun.missing_open (h : GroupRun st g prior arrived delivered)
    (hne : st.lostOf g arrived ≠ [])
    (hopen : ¬Closed (st.whole g) (st.pieces g (groupRun prior arrived delivered))) :
    st.missing (Surface.default.run (groupRun prior arrived delivered)).1 g = st.lostOf g arrived ∧
      Waiting (st.pieces g (groupRun prior arrived delivered))
        (st.view (Surface.default.run (groupRun prior arrived delivered)).1 g) := by
  have hnewest := newest_run h.remembered _ h.upTo
  have hframes : framesOf (st.pieces g (groupRun prior arrived delivered)) =
      (arrived.map fun f => f.sequence.toNat).toFinset := by
    rw [h.pieces, framesOf_first]
  obtain ⟨q, rest, hcons⟩ := List.exists_cons_of_ne_nil hne
  have hq : q ∈ st.lostOf g arrived := by rw [hcons]; exact List.mem_cons_self
  have hmissing : ¬st.whole g ⊆ framesOf (st.pieces g (groupRun prior arrived delivered)) := by
    intro hall
    have hin := hall (List.mem_toFinset.mpr (List.mem_of_mem_filter hq))
    rw [hframes, List.mem_toFinset, List.mem_map] at hin
    obtain ⟨f, hf, heq⟩ := hin
    exact lostOf_ne h.group h.frames hq f hf heq
  have hwait := ((run_cases _ (framesOf_pieces st g _) hmissing).resolve_left fun hc =>
    hopen hc.1).2
  rw [← hnewest.watched.view] at hwait
  refine ⟨?_, hwait⟩
  apply List.filter_congr
  intro q' hq'
  have hpresent := congrArg (fun present => q' ∈ present) (hwait.present.trans hframes)
  simp [mem_present, hq'] at hpresent
  obtain ⟨h1, h2⟩ := le_of_mem_sequences h.group hq'
  have harrived : (∃ f ∈ arrived, f.sequence.toNat = q') ↔ st.sent q' ∈ arrived := by
    constructor
    · rintro ⟨f, hf, heq⟩
      obtain ⟨⟨q'', hq'', rfl⟩, -⟩ := h.frames f hf
      obtain ⟨h1', h2'⟩ := le_of_mem_sequences h.group hq''
      rw [st.numbered q'' h1' h2'] at heq
      exact heq ▸ hf
    · exact fun hin => ⟨_, hin, st.numbered q' h1 h2⟩
  rw [harrived] at hpresent
  rw [Bool.eq_iff_iff, decide_eq_true_eq, Bool.not_eq_true', ← Bool.not_eq_true, hpresent]

theorem GroupRun.solvable_iff {p : Parity} (h : GroupRun st g prior arrived (delivered ++ [p]))
    (hne : st.lostOf g arrived ≠ [])
    (hopen : ¬Closed (st.whole g) (st.pieces g (groupRun prior arrived delivered))) :
    Solvable ((push_shard ((Surface.default.run (groupRun prior arrived delivered)).1.held g)
        p.index.toNat p.payload).map Prod.fst) (st.lostOf g arrived).length ↔
      Closed (st.whole g) (st.pieces g (groupRun prior arrived (delivered ++ [p]))) := by
  have hbefore : GroupRun st g prior arrived delivered := by
    have := h.take delivered.length
    rwa [List.take_left' rfl] at this
  obtain ⟨hmissing, hwait⟩ := hbefore.missing_open hne hopen
  have hpieces : st.pieces g (groupRun prior arrived (delivered ++ [p])) =
      st.pieces g (groupRun prior arrived delivered) ++ [.shard p.index.toNat] := by
    rw [h.pieces, hbefore.pieces]
    simp
  rw [hpieces, closed_append, or_iff_right hopen]
  have hsolve : Solvable (pushIndex _ p.index.toNat) (st.whole g \ _).card ↔ Closes (st.whole g) _ :=
    hwait.solvable_iff p.index.toNat
  rw [← length_missing, hmissing] at hsolve
  have hheld : pushIndex (st.view (Surface.default.run (groupRun prior arrived delivered)).1 g).held
      p.index.toNat = (push_shard ((Surface.default.run (groupRun prior arrived delivered)).1.held g)
        p.index.toNat p.payload).map Prod.fst := (push_shard_indices _ _ _).symm
  rw [← hheld, hsolve]
  simp

theorem groupRun_append (prior : List Arrival) (arrived : List VideoFrame) (delivered : List Parity)
    (p : Parity) :
    groupRun prior arrived (delivered ++ [p]) = groupRun prior arrived delivered ++ [.Shard p] := by
  simp [groupRun]

/-- While the shards come in, a missing frame that is not given up is not reported lost, and it is no
gap any more once it has come back. -/
theorem GroupRun.not_lost (h : GroupRun st g prior arrived delivered) (hq : q ∈ st.lostOf g arrived)
    (hindices : ∀ p ∈ delivered.take (st.lostOf g arrived).length,
      p.index.toNat < (st.lostOf g arrived).length)
    (hbefore : ¬Beyond (patienceOf (st.declared prior)) q arrived)
    (hduring : 2 ≤ (st.lostOf g arrived).length → ¬Beyond (patienceOf st.n) q arrived) :
    q ∉ lostIn (Surface.default.run (groupRun prior arrived delivered)).2 ∧
      (Surface.default.run (groupRun prior arrived delivered)).1.highest =
        (afterFrames prior arrived).1.highest ∧
      (q ∈ (Surface.default.run (groupRun prior arrived delivered)).1.gaps →
        q < (afterFrames prior arrived).1.highest ∧
          delivered.length < (st.lostOf g arrived).length) := by
  have hnoticed := h.noticed hq
  have hin := List.mem_of_mem_filter hq
  have hne : st.lostOf g arrived ≠ [] := List.ne_nil_of_mem hq
  have hpos : 0 < (st.lostOf g arrived).length := List.length_pos_of_ne_nil hne
  induction delivered using List.reverseRecOn with
  | nil =>
    rw [groupRun_nil]
    refine ⟨?_, rfl, fun hgap => ⟨(hnoticed.gap.mp hgap).1, hpos⟩⟩
    intro hlost
    exact hbefore ((hnoticed.beyond_iff hin _).mp (hnoticed.lost.mp hlost))
  | append_singleton delivered p ih =>
    have hshorter : GroupRun st g prior arrived delivered := by
      have := h.take delivered.length
      rwa [List.take_left' rfl] at this
    have hindices' : ∀ p ∈ delivered.take (st.lostOf g arrived).length,
        p.index.toNat < (st.lostOf g arrived).length := by
      intro p' hp'
      apply hindices p'
      rw [List.take_append]
      exact List.mem_append_left _ hp'
    obtain ⟨hnot, hhighest, hgaps⟩ := ih hshorter hindices'
    have hpar : p ∈ st.parity g := h.shards p (by simp)
    have hnewest := newest_run h.remembered _ hshorter.upTo
    obtain ⟨hsame, -, gaps, hsub, -, hafter, hlost⟩ := record_gaps hnewest.kept h.group hpar
    rw [groupRun_append, run_append]
    simp only [Surface.run, Surface.arrive, mem_lostIn_append, hsame, hhighest, true_and]
    by_cases hlast : delivered.length + 1 = (st.lostOf g arrived).length
    · -- this shard closes the group
      have hopen : ¬Closed (st.whole g) (st.pieces g (groupRun prior arrived delivered)) := by
        rw [hshorter.closed_iff]
        omega
      have hclosed : Closed (st.whole g) (st.pieces g (groupRun prior arrived (delivered ++ [p]))) := by
        rw [h.closed_iff]
        exact ⟨_, hpos, by rw [List.length_append, List.length_singleton]; omega, le_rfl, hindices⟩
      obtain ⟨hmissing, -⟩ := hshorter.missing_open hne hopen
      have hsolve := (h.solvable_iff hne hopen).mpr hclosed
      obtain ⟨k, length, packed, hc⟩ := coded_of_parity (List.ne_nil_of_mem hpar)
      have hrec := recorded hnewest.kept h.group hpar (by
        rw [newest_parity hnewest (le_refl g) (hc.shard h.group hpar).group,
          SortedMap.get?_insert_self])
      rw [← hmissing] at hsolve
      obtain ⟨hgone, hquiet⟩ := hrec.solved_gaps hsolve (hmissing ▸ hq)
      exact ⟨fun hx => hx.elim hnot hquiet, fun hgap => absurd hgap hgone⟩
    · have hstill : q ∈ gaps → q < (afterFrames prior arrived).1.highest ∧
          delivered.length < (st.lostOf g arrived).length := fun hgap => hgaps (hsub q hgap)
      refine ⟨?_, ?_⟩
      · rintro (hx | hx)
        · exact hnot hx
        · rw [hlost] at hx
          obtain ⟨hgap, hup⟩ := List.mem_filter.mp hx
          obtain ⟨hlt, hfew⟩ := hstill hgap
          apply hduring (by omega)
          rw [← hnoticed.beyond_iff hin]
          rw [hhighest] at hup
          exact ⟨hlt, of_decide_eq_true hup⟩
      · intro hgap
        rw [hafter] at hgap
        obtain ⟨hlt, hfew⟩ := hstill (List.mem_of_mem_filter hgap)
        rw [List.length_append, List.length_singleton]
        omega

/-- With two frames missing, one that is given up under the declared group size is reported lost with
the first shard. -/
theorem GroupRun.lost_during (h : GroupRun st g prior arrived delivered)
    (hq : q ∈ st.lostOf g arrived) (htwo : 2 ≤ (st.lostOf g arrived).length)
    (hdelivered : delivered ≠ []) (hbefore : ¬Beyond (patienceOf (st.declared prior)) q arrived)
    (hduring : Beyond (patienceOf st.n) q arrived) :
    q ∈ lostIn (Surface.default.run (groupRun prior arrived delivered)).2 := by
  obtain ⟨p, rest, rfl⟩ := List.exists_cons_of_ne_nil hdelivered
  have hnoticed := h.noticed hq
  have hin := List.mem_of_mem_filter hq
  have hne : st.lostOf g arrived ≠ [] := List.ne_nil_of_mem hq
  have hnone : GroupRun st g prior arrived [] := h.take 0
  have hone : GroupRun st g prior arrived ([] ++ [p]) := h.take 1
  have hopen : ¬Closed (st.whole g) (st.pieces g (groupRun prior arrived [])) := by
    rw [hnone.closed_iff]
    rintro ⟨j, hpos, hle, -⟩
    rw [List.length_nil] at hle
    omega
  have hwaits : ¬Solvable ((push_shard ((Surface.default.run (groupRun prior arrived [])).1.held g)
      p.index.toNat p.payload).map Prod.fst) (st.lostOf g arrived).length := by
    rw [hone.solvable_iff hne hopen, hone.closed_iff]
    rintro ⟨j, -, hle, hcount, -⟩
    rw [List.nil_append, List.length_singleton] at hle
    omega
  obtain ⟨hmissing, -⟩ := hnone.missing_open hne hopen
  obtain ⟨-, -, gaps, -, hkeep, -, hlost⟩ := record_gaps hnone.kept h.group (h.shards p (by simp))
  rw [hmissing] at hkeep
  have hgap : q ∈ gaps := by
    have hopengap : q ∈ (Surface.default.run (groupRun prior arrived [])).1.gaps := by
      rw [groupRun_nil]
      refine hnoticed.gap.mpr ⟨((hnoticed.beyond_iff hin _).mpr hduring).1, fun hup => hbefore ?_⟩
      exact (hnoticed.beyond_iff hin _).mp ⟨((hnoticed.beyond_iff hin _).mpr hduring).1, hup⟩
    exact (hkeep q hopengap).resolve_right fun hsolve => hwaits hsolve.2
  have hfirst : q ∈ ((Surface.default.run (groupRun prior arrived [])).1.record_parity p).2.lost := by
    rw [hlost]
    refine List.mem_filter.mpr ⟨hgap, decide_eq_true ?_⟩
    rw [groupRun_nil]
    exact ((hnoticed.beyond_iff hin _).mpr hduring).2
  rw [lostIn_groupRun, List.mem_append]
  right
  rw [groupRun_nil] at hfirst
  simp [lostIn, Surface.run, Surface.arrive]
  exact .inl hfirst

/-! ## Repair in time -/

/-- As soon as as many shards have been delivered as frames are missing, the missing frames have been
emitted, just as they were sent, and none of them is ever reported lost. -/
def RepairsInTime (st : VideoStream) (g : Nat) (prior : List Arrival) (arrived : List VideoFrame)
    (delivered : List Parity) : Prop :=
  (st.lostOf g arrived).length ≤ delivered.length → ∀ q ∈ st.lostOf g arrived,
    (∀ m ≤ delivered.length, (st.lostOf g arrived).length ≤ m →
      st.sent q ∈
        emitted (VideoRepair.default.run (groupRun prior arrived (delivered.take m))).2) ∧
    q ∉ lostIn (VideoRepair.default.run (groupRun prior arrived delivered)).2

/-- A group is repaired in time exactly when too few shards arrive to promise anything, or the first
shards to arrive, as many as frames are missing, are those with the first indices, and no missing
frame is given up before they have come. -/
theorem repair_in_time_iff (h : GroupRun st g prior arrived delivered) :
    RepairsInTime st g prior arrived delivered ↔
      st.lostOf g arrived = [] ∨ delivered.length < (st.lostOf g arrived).length ∨
      (∀ p ∈ delivered.take (st.lostOf g arrived).length,
        p.index.toNat < (st.lostOf g arrived).length) ∧
      ∀ q ∈ st.lostOf g arrived, ¬Beyond (patienceOf (st.declared prior)) q arrived ∧
        (2 ≤ (st.lostOf g arrived).length → ¬Beyond (patienceOf st.n) q arrived) := by
  have hout : (VideoRepair.default.run (groupRun prior arrived delivered)).2 =
      (Surface.default.run (groupRun prior arrived delivered)).2 :=
    run_of_sends _ (fun a ha => (h.upTo a ha).1) _
  unfold RepairsInTime
  rw [hout]
  by_cases hne : st.lostOf g arrived = []
  · simp [hne]
  by_cases hfew : delivered.length < (st.lostOf g arrived).length
  · simp [hne, hfew]
  have hpos : 0 < (st.lostOf g arrived).length := List.length_pos_of_ne_nil hne
  rw [or_iff_right hne, or_iff_right hfew]
  constructor
  · intro hrepairs
    have hall := hrepairs (by omega)
    refine ⟨?_, ?_⟩
    · obtain ⟨q, rest, hcons⟩ := List.exists_cons_of_ne_nil hne
      have hq : q ∈ st.lostOf g arrived := by rw [hcons]; exact List.mem_cons_self
      have hemit := (hall q hq).1 (st.lostOf g arrived).length (by omega) (le_refl _)
      rw [(h.take _).emitted_iff hq, (h.take _).closed_iff] at hemit
      obtain ⟨j, -, hle, hcount, hindices⟩ := hemit
      rw [List.length_take] at hle
      have hj : j = (st.lostOf g arrived).length := by omega
      rw [hj, List.take_take, Nat.min_self] at hindices
      exact hindices
    · intro q hq
      have hbefore : ¬Beyond (patienceOf (st.declared prior)) q arrived :=
        fun hbeyond => (hall q hq).2 (h.lost_before hq hbeyond)
      refine ⟨hbefore, fun htwo hduring => (hall q hq).2 ?_⟩
      exact h.lost_during hq htwo (List.ne_nil_of_length_pos (by omega)) hbefore hduring
  · rintro ⟨hindices, hpatience⟩ - q hq
    refine ⟨?_, (h.not_lost hq hindices (hpatience q hq).1 (hpatience q hq).2).1⟩
    intro m hm hcount
    rw [(h.take m).emitted_iff hq, (h.take m).closed_iff]
    refine ⟨_, hpos, by rw [List.length_take]; omega, le_refl _, ?_⟩
    rw [List.take_take, Nat.min_eq_left hcount]
    exact hindices

end Runs

/-! ## The shard with the second index -/

/-- The second shard of a pair of frames, delivered alone: it should repair the lost frame and does
not. -/
theorem the_second_shard_alone_repairs_nothing :
    ¬RepairsInTime pairStream 0 [] [pairStream.sent 1] [pairShard 1] := by
  intro h
  have hlost : pairStream.lostOf 0 [pairStream.sent 1] = [2] := by decide +kernel
  have hemitted := (h (by rw [hlost]; exact le_refl 1) 2 (by rw [hlost]; simp)).1 1 (le_refl 1)
    (by rw [hlost]; exact le_refl 1)
  revert hemitted
  decide +kernel

theorem the_first_shard_repairs_the_pair :
    RepairsInTime pairStream 0 [] [pairStream.sent 1] [pairShard 0] := by
  have hlost : pairStream.lostOf 0 [pairStream.sent 1] = [2] := by decide +kernel
  apply (repair_in_time_iff ?_).mpr
  · right
    right
    rw [hlost]
    refine ⟨by decide +kernel, ?_⟩
    intro q hq
    rw [List.mem_singleton] at hq
    subst hq
    refine ⟨?_, fun htwo => absurd htwo (by decide)⟩
    rintro ⟨f, hf, hlt, -⟩
    rw [List.mem_singleton] at hf
    subst hf
    revert hlt
    decide
  · refine ⟨by decide, by decide, by simp, ?_, ?_, by simp⟩
    · intro f hf
      rw [List.mem_singleton] at hf
      subst hf
      obtain ⟨q, -, -, -, hbytes⟩ := pair_frame_sends (le_refl 1) (by decide)
      exact ⟨⟨1, by decide, rfl⟩, hbytes⟩
    · intro p hp
      rw [List.mem_singleton] at hp
      subst hp
      exact pairShard_sent 0 (by decide)

end multiplex_screen_session
