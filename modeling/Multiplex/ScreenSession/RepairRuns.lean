-- Runs of the repair over an honest stream. Whatever the link brings, the
-- groups go their own ways: what is at the viewer of a group depends only on
-- the pieces of that group and their order.
import Multiplex.ScreenSession.Repair

namespace multiplex_screen_session

open multiplex_screen_protocol multiplex_screen_host

variable {st : VideoStream} {g : Nat}

/-! ## Runs of one surface -/

def Surface.arrive (s : Surface) : Arrival → Surface × Repaired
  | .Frame frame =>
    match frame.encode with
    | .ok encoded => s.frame frame encoded
    | .error _ => (s, .default)
  | .Shard parity => s.record_parity parity

def Surface.run (s : Surface) : List Arrival → Surface × List Repaired
  | [] => (s, [])
  | a :: rest =>
    let (s, repaired) := s.arrive a
    let (s, later) := s.run rest
    (s, repaired :: later)

theorem run_append (s : Surface) (l l' : List Arrival) :
    s.run (l ++ l') = (((s.run l).1.run l').1, (s.run l).2 ++ ((s.run l).1.run l').2) := by
  induction l generalizing s with
  | nil => rfl
  | cons a l ih =>
    simp [Surface.run, ih]

theorem arrive_of_sends (r : VideoRepair) {a : Arrival} (ha : st.Sends a) :
    r.arrive a = ((r.surface st.surface).1.store st.surface ((r.surface st.surface).2.arrive a).1,
      ((r.surface st.surface).2.arrive a).2) := by
  cases a with
  | Frame frame =>
    obtain ⟨q, -, -, rfl, bytes, hbytes⟩ := ha
    simp only [VideoRepair.arrive, VideoRepair.frame, Surface.arrive, hbytes, st.same]
  | Shard p =>
    obtain ⟨g, hg, hp⟩ := ha
    obtain ⟨k, length, packed, hc⟩ := coded_of_parity (List.ne_nil_of_mem hp)
    have hshard := hc.shard hg hp
    have hdata : p.data_shards ≠ 0 := by
      intro h
      have := hshard.data_shards
      rw [h] at this
      exact absurd this.symm st.n_pos.ne'
    have hpayload : ¬p.payload.isEmpty = true := by
      intro h
      have hlen := ShardOf.payload_length hc hshard
      rw [List.isEmpty_iff.mp h] at hlen
      exact absurd hlen.symm hc.long.ne'
    simp only [VideoRepair.arrive, VideoRepair.parity, Surface.arrive]
    rw [if_neg (by simp [hdata, hpayload]), hshard.surface]

theorem run_of_sends (l : List Arrival) (hl : ∀ a ∈ l, st.Sends a) :
    ∀ r : VideoRepair, (r.run l).2 = ((r.surface st.surface).2.run l).2 := by
  induction l with
  | nil => exact fun r => rfl
  | cons a l ih =>
    intro r
    have hstored : ∀ (r : VideoRepair) (s : Surface),
      ((r.store st.surface s).surface st.surface).2 = s := by
      intro r s
      have hget : (r.store st.surface s).surfaces.get? st.surface.toNat = some s :=
        SortedMap.get?_insert_self
      unfold VideoRepair.surface
      simp [SortedMap.contains, hget]
    unfold VideoRepair.run Surface.run
    simp only [arrive_of_sends r (hl a List.mem_cons_self)]
    rw [ih (fun b hb => hl b (List.mem_cons_of_mem a hb)), hstored]

/-! ## The pieces of a group -/

theorem card_whole (st : VideoStream) (g : Nat) : (st.whole g).card = st.n := by
  unfold VideoStream.whole VideoStream.sequences
  rw [List.toFinset_card_of_nodup List.nodup_range', List.length_range']

def VideoStream.piece (st : VideoStream) (g : Nat) : Arrival → Option Piece
  | .Frame frame =>
    if frame.sequence.toNat ∈ st.sequences g then some (.frame frame.sequence.toNat) else none
  | .Shard parity => if parity.group.toNat = g then some (.shard parity.index.toNat) else none

def VideoStream.pieces (st : VideoStream) (g : Nat) (l : List Arrival) : List Piece :=
  l.filterMap (st.piece g)

/-- What all arrivals have produced. -/
def emitted (outs : List Repaired) : List VideoFrame := outs.flatMap Repaired.frames

variable {groups : Finset Nat} {l : List Arrival} {s : Surface} {outs : List Repaired}

theorem pieces_append (l : List Arrival) (a : Arrival) :
    st.pieces g (l ++ [a]) = st.pieces g l ++ (st.piece g a).toList := by
  unfold VideoStream.pieces
  cases h : st.piece g a <;> simp [h]

theorem run_pieces_append (l : List Arrival) (a : Arrival) :
    Group.run (st.whole g) (st.pieces g (l ++ [a])) =
      match st.piece g a with
      | some p => (Group.run (st.whole g) (st.pieces g l)).arrive (st.whole g) p
      | none => Group.run (st.whole g) (st.pieces g l) := by
  rw [pieces_append]
  unfold Group.run
  cases st.piece g a with
  | none => simp
  | some p => simp [List.foldl_append]

theorem emitted_append (outs : List Repaired) (out : Repaired) :
    emitted (outs ++ [out]) = emitted outs ++ out.frames := by
  simp [emitted]

/-- The surface has of a group what the group's own pieces come to, and every frame of the group that
is here arrived or was emitted. -/
structure Watched (st : VideoStream) (g : Nat) (l : List Arrival) (s : Surface)
    (outs : List Repaired) : Prop where
  view : st.view s g = Group.run (st.whole g) (st.pieces g l)
  here : ∀ q ∈ st.sequences g, s.frames.contains q = true ↔
    (∃ f, .Frame f ∈ l ∧ f.sequence.toNat = q) ∨ ∃ f ∈ emitted outs, f.sequence.toNat = q

variable {q : Nat} {order : List Arrival}

theorem watched_frame (h : Watched st g l s outs) (h1 : 1 ≤ q) (h2 : q ≤ st.groups * st.n)
    {bytes : List UInt8}
    (hstays : ∀ q' ∈ st.sequences g, (s.frame (st.sent q) bytes).1.frames.get? q' =
      (s.frames.insert q bytes).get? q') :
    Watched st g (l ++ [.Frame (st.sent q)]) (s.frame (st.sent q) bytes).1
      (outs ++ [(s.frame (st.sent q) bytes).2]) := by
  have hseq := st.numbered q h1 h2
  refine ⟨?_, ?_⟩
  · rw [view_frame h1 h2 hstays, run_pieces_append, h.view]
    simp only [VideoStream.piece, hseq]
    split <;> rfl
  · intro q' hq'
    have hnone : (s.frame (st.sent q) bytes).2.frames = [] := rfl
    have hget : (s.frame (st.sent q) bytes).1.frames.contains q' = true ↔
        q' = q ∨ s.frames.contains q' = true := by
      unfold SortedMap.contains
      rw [hstays q' hq']
      by_cases heq : q' = q
      · subst heq
        simp
      · rw [SortedMap.get?_insert_of_ne heq]
        simp [heq]
    rw [hget, h.here q' hq', emitted_append, hnone, List.append_nil]
    simp only [List.mem_append, List.mem_singleton, Arrival.Frame.injEq]
    constructor
    · rintro (rfl | ⟨f, hf, hfq⟩ | hout)
      · exact .inl ⟨_, .inr rfl, hseq⟩
      · exact .inl ⟨f, .inl hf, hfq⟩
      · exact .inr hout
    · rintro (⟨f, hf | rfl, hfq⟩ | hout)
      · exact .inr (.inl ⟨f, hf, hfq⟩)
      · exact .inl (hfq.symm.trans hseq)
      · exact .inr (.inr hout)

theorem watched_shard (h : Watched st g l s outs) {p : Parity} {r : Surface × Repaired}
    (hview : st.view r.1 g = match st.piece g (.Shard p) with
      | some piece => (st.view s g).arrive (st.whole g) piece
      | none => st.view s g)
    (hhere : ∀ q, r.1.frames.contains q = true ↔
      s.frames.contains q = true ∨ ∃ f ∈ r.2.frames, f.sequence.toNat = q) :
    Watched st g (l ++ [.Shard p]) r.1 (outs ++ [r.2]) := by
  refine ⟨?_, ?_⟩
  · rw [hview, run_pieces_append, h.view]
  · intro q hq
    rw [hhere, h.here q hq, emitted_append]
    simp
    constructor
    · rintro ((hf | ⟨f, hf, hfq⟩) | ⟨f, hf, hfq⟩)
      · exact .inl hf
      · exact .inr ⟨f, .inl hf, hfq⟩
      · exact .inr ⟨f, .inr hf, hfq⟩
    · rintro (hf | ⟨f, hf | hf, hfq⟩)
      · exact .inl (.inl hf)
      · exact .inl (.inr ⟨f, hf, hfq⟩)
      · exact .inr ⟨f, hf, hfq⟩

theorem watched_default (st : VideoStream) (g : Nat) : Watched st g [] .default [] := by
  refine ⟨?_, ?_⟩
  · have hnone : (st.whole g).filter (fun q => Surface.default.frames.contains q) = ∅ := by
      apply Finset.filter_eq_empty_iff.mpr
      intro q _ hq
      cases hq
    exact congrArg₂ Group.mk hnone rfl
  · simp [emitted, Surface.default, SortedMap.contains]

def EmitsSent (st : VideoStream) (outs : List Repaired) : Prop :=
  ∀ f ∈ emitted outs, ∃ q, 1 ≤ q ∧ q ≤ st.groups * st.n ∧ f = st.sent q

theorem EmitsSent.append (h : EmitsSent st outs) (hg : g < st.groups) {out : Repaired}
    (hout : ∀ f ∈ out.frames, ∃ q ∈ st.sequences g, f = st.sent q) :
    EmitsSent st (outs ++ [out]) := by
  intro f hf
  rw [emitted_append] at hf
  rcases List.mem_append.mp hf with hf | hf
  · exact h f hf
  · obtain ⟨q, hq, rfl⟩ := hout f hf
    obtain ⟨h1, h2⟩ := le_of_mem_sequences hg hq
    exact ⟨q, h1, h2, rfl⟩

/-! ## Groups within the bounds -/

/-- The groups that arrivals belong to, few enough that nothing is forgotten. -/
structure WithinBounds (st : VideoStream) (groups : Finset Nat) : Prop where
  frames : st.n * groups.card ≤ REMEMBERED_FRAMES
  parity : groups.card ≤ REMEMBERED_GROUPS

/-- After arrivals of groups within the bounds. -/
structure Tracked (st : VideoStream) (groups : Finset Nat) (l : List Arrival) (s : Surface)
    (outs : List Repaired) : Prop where
  kept : Kept st s
  frames : ∀ e ∈ s.frames.entries, ∃ g ∈ groups, e.1 ∈ st.sequences g
  parity : ∀ e ∈ s.parity.entries, e.1 ∈ groups
  watched : ∀ g, Watched st g l s outs
  emitted : EmitsSent st outs

theorem keepLast_frames (hb : WithinBounds st groups) {m : SortedMap Nat (List UInt8)}
    (h : ∀ e ∈ m.entries, ∃ g ∈ groups, e.1 ∈ st.sequences g) : m.keepLast REMEMBERED_FRAMES = m := by
  apply SortedMap.keepLast_of_size_le
  have hkeys : ∀ e ∈ m.entries, e.1 ∈ groups.biUnion st.whole := by
    intro e he
    obtain ⟨g, hg, hq⟩ := h e he
    exact Finset.mem_biUnion.mpr ⟨g, hg, List.mem_toFinset.mpr hq⟩
  calc m.size ≤ (groups.biUnion st.whole).card := SortedMap.size_le_card hkeys
    _ ≤ groups.card * st.n := by
      apply Finset.card_biUnion_le_card_mul
      intro g _
      exact (card_whole st g).le
    _ ≤ REMEMBERED_FRAMES := by
      rw [Nat.mul_comm]
      exact hb.frames

theorem keepLast_parity (hb : WithinBounds st groups) {m : SortedMap Nat (List (Nat × Shard))}
    (h : ∀ e ∈ m.entries, e.1 ∈ groups) : m.keepLast REMEMBERED_GROUPS = m :=
  SortedMap.keepLast_of_size_le ((SortedMap.size_le_card h).trans hb.parity)

theorem tracked_frame (hb : WithinBounds st groups) (h : Tracked st groups l s outs) (h1 : 1 ≤ q)
    (h2 : q ≤ st.groups * st.n) {bytes : List UInt8} (henc : (st.sent q).encode = .ok bytes)
    {g₀ : Nat} (hg₀ : g₀ ∈ groups) (hq : q ∈ st.sequences g₀) :
    Tracked st groups (l ++ [.Frame (st.sent q)]) (s.frame (st.sent q) bytes).1
      (outs ++ [(s.frame (st.sent q) bytes).2]) := by
  have hkeys : ∀ e ∈ (s.frames.insert q bytes).entries, ∃ g ∈ groups, e.1 ∈ st.sequences g := by
    intro e he
    rcases SortedMap.mem_insert.mp he with rfl | ⟨hold, -⟩
    · exact ⟨g₀, hg₀, hq⟩
    · exact h.frames e hold
  have hframes : (s.frame (st.sent q) bytes).1.frames = s.frames.insert q bytes := by
    rw [frame_frames, st.numbered q h1 h2, keepLast_frames hb hkeys]
  have hnone : (s.frame (st.sent q) bytes).2.frames = [] := rfl
  refine ⟨kept_frame h.kept h1 h2 henc, by rw [hframes]; exact hkeys, ?_, ?_, ?_⟩
  · rw [frame_parity]
    exact h.parity
  · exact fun g => watched_frame (h.watched g) h1 h2 fun q' _ => by rw [hframes]
  · unfold EmitsSent
    rw [emitted_append, hnone, List.append_nil]
    exact h.emitted

theorem Recorded.frames_mem {p : Parity} {k length : Nat} {packed : List Shard}
    (h : Recorded st s g p (s.record_parity p)) (hc : Coded st g k length packed)
    (hg : g < st.groups) {e : Nat × List UInt8} (he : e ∈ (s.record_parity p).1.frames.entries) :
    (∃ bytes, (e.1, bytes) ∈ s.frames.entries) ∨ e.1 ∈ st.sequences g := by
  obtain ⟨hemits, hhere⟩ := h.emits hc hg
  have hcontains : (s.record_parity p).1.frames.contains e.1 = true := by
    unfold SortedMap.contains
    rw [SortedMap.get?_eq_some_iff.mpr he]
    rfl
  rcases (hhere e.1).mp hcontains with hold | ⟨f, hf, hfq⟩
  · obtain ⟨bytes, hbytes⟩ := Option.isSome_iff_exists.mp hold
    exact .inl ⟨bytes, SortedMap.get?_eq_some_iff.mp hbytes⟩
  · obtain ⟨q, hq, rfl⟩ := hemits f hf
    obtain ⟨h1, h2⟩ := le_of_mem_sequences hg hq
    rw [st.numbered q h1 h2] at hfq
    exact .inr (hfq ▸ hq)

theorem tracked_shard (hb : WithinBounds st groups) (h : Tracked st groups l s outs)
    (hg : g < st.groups) (hmem : g ∈ groups) {p : Parity} (hp : p ∈ st.parity g) :
    Tracked st groups (l ++ [.Shard p]) (s.record_parity p).1 (outs ++ [(s.record_parity p).2]) := by
  obtain ⟨k, length, packed, hc⟩ := coded_of_parity (List.ne_nil_of_mem hp)
  have hgroup := (hc.shard hg hp).group
  have hkeys : ∀ e ∈ (s.parity.insert g (push_shard (s.held g) p.index.toNat p.payload)).entries,
      e.1 ∈ groups := by
    intro e he
    rcases SortedMap.mem_insert.mp he with rfl | ⟨hold, -⟩
    · exact hmem
    · exact h.parity e hold
  have hparity : (s.keep_shard p).parity =
      s.parity.insert g (push_shard (s.held g) p.index.toNat p.payload) := by
    rw [keep_shard_parity, hgroup, keepLast_parity hb hkeys]
  have hstays : (s.keep_shard p).parity.get? g =
      some (push_shard (s.held g) p.index.toNat p.payload) := by
    rw [hparity, SortedMap.get?_insert_self]
  have hrec := recorded h.kept hg hp hstays
  obtain ⟨hemits, hhere⟩ := hrec.emits hc hg
  refine ⟨hrec.kept (kept_keep_shard h.kept hp hgroup) hg, ?_, ?_, ?_, h.emitted.append hg hemits⟩
  · intro e he
    rcases hrec.frames_mem hc hg he with ⟨bytes, hold⟩ | hq
    · exact h.frames (e.1, bytes) hold
    · exact ⟨g, hmem, hq⟩
  · intro e he
    rcases hrec.parity_mem hgroup he with heq | hold
    · exact heq ▸ hmem
    · exact h.parity e hold
  · intro g'
    apply watched_shard (h.watched g') _ hhere
    simp only [VideoStream.piece, hgroup]
    by_cases hg' : g = g'
    · subst hg'
      rw [if_pos rfl, hrec.view_own hc hstays]
    · rw [if_neg hg', hrec.view_other hc (Ne.symm hg')]
      rw [hparity, SortedMap.get?_insert_of_ne (Ne.symm hg')]

theorem tracked_run (hb : WithinBounds st groups) (l : List Arrival) (hl : ∀ a ∈ l, st.Sends a)
    (hgroups : ∀ a ∈ l, st.groupOf a ∈ groups) :
    Tracked st groups l (Surface.default.run l).1 (Surface.default.run l).2 := by
  induction l using List.reverseRecOn with
  | nil =>
    refine ⟨kept_default st, ?_, ?_, watched_default st, ?_⟩
    · intro e he
      cases he
    · intro e he
      cases he
    · intro f hf
      cases hf
  | append_singleton l a ih =>
    have h := ih (fun b hb => hl b (List.mem_append_left _ hb))
      (fun b hb => hgroups b (List.mem_append_left _ hb))
    have ha := hl a (by simp)
    have hga := hgroups a (by simp)
    rw [run_append]
    simp only [Surface.run]
    cases a with
    | Frame frame =>
      obtain ⟨q, h1, h2, rfl, bytes, hbytes⟩ := ha
      obtain ⟨g₀, hg₀, hq⟩ := exists_group h1 h2
      rw [groupOf_frame hg₀ hq] at hga
      simp only [Surface.arrive, hbytes]
      exact tracked_frame hb h h1 h2 hbytes hga hq
    | Shard p =>
      obtain ⟨g₀, hg₀, hp⟩ := ha
      have hgroup := (shard_of_parity hg₀ hp).1
      simp only [VideoStream.groupOf, hgroup] at hga
      exact tracked_shard hb h hg₀ hga hp

/-! ## The order of arrival -/

/-- The frame is at the viewer once all of these have arrived: it arrived itself, or it was
repaired. -/
def Available (order : List Arrival) (f : VideoFrame) : Prop :=
  .Frame f ∈ order ∨ f ∈ emitted (VideoRepair.default.run order).2

theorem mem_present :
    q ∈ (st.view s g).present ↔ q ∈ st.sequences g ∧ s.frames.contains q = true := by
  unfold VideoStream.view VideoStream.whole
  rw [Finset.mem_filter, List.mem_toFinset]

section
variable (hl : ∀ a ∈ order, st.Sends a)
include hl

theorem emitted_run :
    emitted (VideoRepair.default.run order).2 = emitted (Surface.default.run order).2 := by
  rw [run_of_sends order hl]
  rfl

theorem available_is_sent (hb : WithinBounds st groups)
    (hgroups : ∀ a ∈ order, st.groupOf a ∈ groups) {f : VideoFrame} (h : Available order f) :
    ∃ g < st.groups, ∃ q ∈ st.sequences g, f = st.sent q := by
  obtain ⟨q, h1, h2, rfl⟩ : ∃ q, 1 ≤ q ∧ q ≤ st.groups * st.n ∧ f = st.sent q := by
    rcases h with h | h
    · obtain ⟨q, h1, h2, hf, -⟩ := hl _ h
      exact ⟨q, h1, h2, hf⟩
    · rw [emitted_run hl] at h
      exact (tracked_run hb order hl hgroups).emitted f h
  obtain ⟨g, hg, hq⟩ := exists_group h1 h2
  exact ⟨g, hg, q, hq, rfl⟩

theorem available_sent (hb : WithinBounds st groups) (hgroups : ∀ a ∈ order, st.groupOf a ∈ groups)
    (hg : g < st.groups) (hq : q ∈ st.sequences g) :
    Available order (st.sent q) ↔ q ∈ (Group.run (st.whole g) (st.pieces g order)).present := by
  have htracked := tracked_run hb order hl hgroups
  obtain ⟨h1, h2⟩ := le_of_mem_sequences hg hq
  have hseq := st.numbered q h1 h2
  unfold Available
  rw [emitted_run hl, ← (htracked.watched g).view, mem_present, (htracked.watched g).here q hq]
  constructor
  · intro h
    exact ⟨hq, h.imp (fun h => ⟨_, h, hseq⟩) fun h => ⟨_, h, hseq⟩⟩
  · rintro ⟨-, ⟨f, hf, hfq⟩ | ⟨f, hf, hfq⟩⟩
    · obtain ⟨q', h1', h2', rfl, -⟩ := hl _ hf
      rw [st.numbered q' h1' h2'] at hfq
      exact .inl (hfq ▸ hf)
    · obtain ⟨q', h1', h2', rfl⟩ := htracked.emitted f hf
      rw [st.numbered q' h1' h2'] at hfq
      exact .inr (hfq ▸ hf)

end

theorem exists_perm_filterMap {α β : Type} (f : α → Option β) :
    ∀ (order : List β) (l : List α), order.Perm (l.filterMap f) →
      ∃ l' : List α, l'.Perm l ∧ l'.filterMap f = order := by
  intro order
  induction order with
  | nil =>
    intro l h
    exact ⟨l, List.Perm.refl l, h.symm.eq_nil⟩
  | cons b order ih =>
    intro l h
    obtain ⟨a, ha, hab⟩ := List.mem_filterMap.mp (h.subset List.mem_cons_self)
    obtain ⟨before, after, rfl⟩ := List.append_of_mem ha
    have hmiddle : (before ++ a :: after).Perm (a :: (before ++ after)) := List.perm_middle
    have hrest : order.Perm ((before ++ after).filterMap f) := by
      have hcons := h.trans (hmiddle.filterMap f)
      rw [List.filterMap_cons_some hab] at hcons
      exact hcons.cons_inv
    obtain ⟨l', hl', hf⟩ := ih (before ++ after) hrest
    refine ⟨a :: l', (hl'.cons a).trans hmiddle.symm, ?_⟩
    rw [List.filterMap_cons_some hab, hf]

theorem framesOf_pieces (st : VideoStream) (g : Nat) (l : List Arrival) :
    framesOf (st.pieces g l) ⊆ st.whole g := by
  intro q hq
  rw [mem_framesOf] at hq
  obtain ⟨a, -, ha⟩ := List.mem_filterMap.mp hq
  cases a with
  | Frame frame =>
    simp [VideoStream.piece] at ha
    rw [← ha.2]
    exact List.mem_toFinset.mpr ha.1
  | Shard parity => simp [VideoStream.piece] at ha

theorem groupOf_lt {a : Arrival} (h : st.Sends a) : st.groupOf a < st.groups := by
  cases a with
  | Frame frame =>
    obtain ⟨q, h1, h2, rfl, -⟩ := h
    obtain ⟨g, hg, hq⟩ := exists_group h1 h2
    rw [groupOf_frame hg hq]
    exact hg
  | Shard p =>
    obtain ⟨g, hg, hp⟩ := h
    exact (shard_of_parity hg hp).1.trans_lt hg

theorem pieces_eq_nil {l : List Arrival} (hl : ∀ a ∈ l, st.Sends a) (hg : g ∉ l.map st.groupOf) :
    st.pieces g l = [] := by
  apply List.filterMap_eq_nil_iff.mpr
  intro a ha
  cases a with
  | Frame frame =>
    obtain ⟨q, h1, h2, rfl, -⟩ := hl _ ha
    simp [VideoStream.piece]
    intro hq
    rw [st.numbered q h1 h2] at hq
    obtain ⟨g', hg', hq'⟩ := exists_group h1 h2
    apply hg
    refine List.mem_map.mpr ⟨_, ha, ?_⟩
    rw [groupOf_frame hg' hq']
    by_contra hne
    exact sequences_disjoint hne hq hq'
  | Shard p =>
    simp [VideoStream.piece]
    intro hp
    exact hg (List.mem_map.mpr ⟨_, ha, hp⟩)

/-- The order of the arrivals does not matter for what is at the viewer exactly when it does not
matter for any group: every frame of the group arrives, or the shards with the first indices are not
all there, or the shards alone rebuild the group in any order. -/
theorem repair_keeps_any_order_iff (st : VideoStream) (l : List Arrival)
    (hl : ∀ a ∈ l, st.Sends a) (hb : WithinBounds st (l.map st.groupOf).toFinset) :
    (∀ order : List Arrival, order.Perm l → ∀ f, Available order f ↔ Available l f) ↔
      ∀ g ∈ l.map st.groupOf, AnyOrder (st.whole g) (st.pieces g l) := by
  have hgroups : ∀ order : List Arrival, order.Perm l → ∀ a ∈ order,
      st.groupOf a ∈ (l.map st.groupOf).toFinset := by
    intro order hperm a ha
    exact List.mem_toFinset.mpr (List.mem_map_of_mem (hperm.subset ha))
  have hsends : ∀ order : List Arrival, order.Perm l → ∀ a ∈ order, st.Sends a :=
    fun order hperm a ha => hl a (hperm.subset ha)
  have hany : ∀ g, (∀ order, order.Perm (st.pieces g l) →
      (Group.run (st.whole g) order).present = (Group.run (st.whole g) (st.pieces g l)).present) ↔
      AnyOrder (st.whole g) (st.pieces g l) := by
    intro g
    apply any_order_iff (framesOf_pieces st g l)
    rw [card_whole]
    exact st.n_pos
  constructor
  · intro hsame g hg
    rw [← hany]
    intro order hperm
    obtain ⟨l', hl', rfl⟩ := exists_perm_filterMap (st.piece g) order l hperm
    obtain ⟨a, ha, rfl⟩ := List.mem_map.mp hg
    have hg := groupOf_lt (hl a ha)
    have hwhole : ∀ l, (Group.run (st.whole (st.groupOf a)) (st.pieces (st.groupOf a) l)).present ⊆
        st.whole (st.groupOf a) := fun l => (run_bounds _ (framesOf_pieces st _ l)).2
    ext q
    constructor
    · intro hq
      have hin := List.mem_toFinset.mp (hwhole l' hq)
      rw [← available_sent hl hb (hgroups l (List.Perm.refl l)) hg hin, ← hsame l' hl',
        available_sent (hsends l' hl') hb (hgroups l' hl') hg hin]
      exact hq
    · intro hq
      have hin := List.mem_toFinset.mp (hwhole l hq)
      rw [← available_sent hl hb (hgroups l (List.Perm.refl l)) hg hin, ← hsame l' hl',
        available_sent (hsends l' hl') hb (hgroups l' hl') hg hin] at hq
      exact hq
  · intro hgood order hperm f
    have hequal : ∀ g < st.groups, ∀ q ∈ st.sequences g,
        (Available order (st.sent q) ↔ Available l (st.sent q)) := by
      intro g hg q hq
      rw [available_sent (hsends order hperm) hb (hgroups order hperm) hg hq,
        available_sent hl hb (hgroups l (List.Perm.refl l)) hg hq]
      have hpieces : (st.pieces g order).Perm (st.pieces g l) := hperm.filterMap _
      by_cases hmem : g ∈ l.map st.groupOf
      · rw [(hany g).mpr (hgood g hmem) _ hpieces]
      · rw [pieces_eq_nil hl hmem] at hpieces ⊢
        rw [hpieces.eq_nil]
    constructor
    · intro h
      obtain ⟨g, hg, q, hq, rfl⟩ := available_is_sent (hsends order hperm) hb (hgroups order hperm) h
      exact (hequal g hg q hq).mp h
    · intro h
      obtain ⟨g, hg, q, hq, rfl⟩ := available_is_sent hl hb (hgroups l (List.Perm.refl l)) h
      exact (hequal g hg q hq).mpr h

/-! ## A group of two frames -/

def pairStream : VideoStream where
  surface := 1
  n := 2
  groups := 1
  sent q := ⟨1, UInt64.ofNat q, q == 1, none, [UInt8.ofNat q]⟩
  shards _ := 2
  n_pos := Nat.two_pos
  counted := by decide
  numbered q h1 h2 := UInt64.toNat_ofNat_of_lt' (show q < 2 ^ 64 by omega)
  same _ := rfl

def pairShard (index : Nat) : Parity := (pairStream.parity 0).getD index ⟨0, 0, 0, 0, []⟩

theorem pairShard_sent : ∀ index < 2, pairShard index ∈ pairStream.parity 0 := by
  decide +kernel

/-- The shard that overtakes the frame is of no use: with it first, the second frame never comes. -/
theorem an_overtaking_shard_repairs_nothing : ¬∀ order : List Arrival,
      order.Perm [.Frame (pairStream.sent 1), .Shard (pairShard 0)] →
      ∀ f, Available order f ↔ Available [.Frame (pairStream.sent 1), .Shard (pairShard 0)] f := by
  intro h
  have hswap := h [.Shard (pairShard 0), .Frame (pairStream.sent 1)] (List.Perm.swap _ _ _)
    (pairStream.sent 2)
  have hcomes : Available [.Frame (pairStream.sent 1), .Shard (pairShard 0)] (pairStream.sent 2) := by
    refine Or.inr ?_
    decide +kernel
  rcases hswap.mpr hcomes with harrived | hemitted
  · revert harrived
    decide +kernel
  · revert hemitted
    decide +kernel

theorem pair_frame_sends (h1 : 1 ≤ q) (h2 : q ≤ 2) :
    pairStream.Sends (.Frame (pairStream.sent q)) := by
  refine ⟨q, h1, h2, rfl, VIDEO_FRAME :: (pairStream.sent q).body, ?_⟩
  exact if_neg (by simp [pairStream, MAX_VIDEO_FRAME_BYTES])

/-- One frame is lost, and the two shards bring it back wherever they come. -/
theorem a_lost_frame_comes_back_in_any_order :
    Available [.Shard (pairShard 1), .Frame (pairStream.sent 1), .Shard (pairShard 0)]
        (pairStream.sent 2) ∧
      Available [.Frame (pairStream.sent 1), .Shard (pairShard 0), .Shard (pairShard 1)]
        (pairStream.sent 2) := by
  have hperm : [Arrival.Shard (pairShard 1), .Frame (pairStream.sent 1), .Shard (pairShard 0)].Perm
      [.Frame (pairStream.sent 1), .Shard (pairShard 0), .Shard (pairShard 1)] := by
    decide +kernel
  have hcomes : Available [.Frame (pairStream.sent 1), .Shard (pairShard 0), .Shard (pairShard 1)]
      (pairStream.sent 2) := Or.inr (by decide +kernel)
  refine ⟨((repair_keeps_any_order_iff pairStream _ ?_ ?_).mpr ?_ _ hperm _).mpr hcomes, hcomes⟩
  · intro a ha
    simp only [List.mem_cons, List.not_mem_nil, or_false] at ha
    rcases ha with rfl | rfl | rfl
    · exact pair_frame_sends (by decide) (by decide)
    · exact ⟨0, by decide, pairShard_sent 0 (by decide)⟩
    · exact ⟨0, by decide, pairShard_sent 1 (by decide)⟩
  · constructor
    · decide +kernel
    · decide +kernel
  · have hgroups : [Arrival.Frame (pairStream.sent 1), .Shard (pairShard 0),
        .Shard (pairShard 1)].map pairStream.groupOf = [0, 0, 0] := by
      decide +kernel
    rw [hgroups]
    intro g hg
    simp only [List.mem_cons, List.not_mem_nil, or_false, or_self] at hg
    subst hg
    right
    right
    decide +kernel

end multiplex_screen_session
