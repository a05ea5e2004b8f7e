-- Repair at most once: no frame comes back twice or after it arrived, and none
-- is given up after it came. What the surface has forgotten can break it, and so
-- can a frame that comes back before any frame beyond it was seen.
import Multiplex.Lib.Runs
import Multiplex.ScreenSession.NewestGroup

namespace multiplex_screen_session

open multiplex_screen_protocol multiplex_screen_host

/-! ## Histories -/

def Arrival.frames : Arrival → List Nat
  | .Frame frame => [frame.sequence.toNat]
  | .Shard _ => []

def Repaired.numbers (repaired : Repaired) : List Nat :=
  repaired.frames.map fun frame => frame.sequence.toNat

/-- An arrival and what it produced, alone: nothing twice, and nothing lost that comes. -/
structure OnceAlone (e : Arrival × Repaired) : Prop where
  numbers : e.2.numbers.Nodup
  lost : e.2.lost.Nodup
  arrived : ∀ q ∈ e.2.numbers, q ∉ e.1.frames
  given_up : ∀ q ∈ e.2.lost, q ∉ e.1.frames ∧ q ∉ e.2.numbers

/-- What came or was given up does not come back or get given up later. -/
structure NotAgain (earlier later : Arrival × Repaired) : Prop where
  numbers : ∀ q ∈ later.2.numbers, q ∉ earlier.1.frames ∧ q ∉ earlier.2.numbers
  lost : ∀ q ∈ later.2.lost, q ∉ earlier.1.frames ∧ q ∉ earlier.2.numbers ∧ q ∉ earlier.2.lost

/-- Every frame comes back once at most and not after it arrived, and it is reported lost once at
most and not after it arrived or came back. -/
structure AtMostOnce (history : List (Arrival × Repaired)) : Prop where
  alone : ∀ e ∈ history, OnceAlone e
  again : history.Pairwise NotAgain

/-- The arrivals with what each produced. -/
def VideoRepair.history (r : VideoRepair) (l : List Arrival) : List (Arrival × Repaired) :=
  l.zip (r.run l).2

/-- What the next arrival may produce. -/
def Fresh (history : List (Arrival × Repaired)) (e : Arrival × Repaired) : Prop :=
  OnceAlone e ∧ ∀ earlier ∈ history, NotAgain earlier e

theorem atMostOnce_snoc (history : List (Arrival × Repaired)) (e : Arrival × Repaired) :
    AtMostOnce (history ++ [e]) ↔ AtMostOnce history ∧ Fresh history e := by
  constructor
  · rintro ⟨halone, hagain⟩
    rw [List.pairwise_append] at hagain
    refine ⟨⟨fun x hx => halone x (List.mem_append_left _ hx), hagain.1⟩, halone e (by simp), ?_⟩
    exact fun x hx => hagain.2.2 x hx e (List.mem_singleton_self e)
  · rintro ⟨⟨halone, hagain⟩, hown, hearlier⟩
    constructor
    · intro x hx
      rw [List.mem_append, List.mem_singleton] at hx
      rcases hx with hx | rfl
      · exact halone x hx
      · exact hown
    · rw [List.pairwise_append]
      refine ⟨hagain, List.pairwise_singleton _ _, fun x hx y hy => ?_⟩
      rw [List.mem_singleton] at hy
      subst hy
      exact hearlier x hx

/-! ## The condition -/

/-- A surface, with all frames that arrived or came back, and those that came back before any frame
so high was seen and did not arrive since. -/
structure Viewer where
  surface : Surface
  seen : List Nat
  ahead : List Nat

def Viewer.start : Viewer := ⟨.default, [], []⟩

def Viewer.arrive (v : Viewer) (a : Arrival) : Viewer :=
  let (surface, repaired) := v.surface.arrive a
  { surface
    seen := v.seen ++ (a.frames ++ repaired.numbers)
    ahead := v.ahead.filter (fun q => decide (q ∉ a.frames)) ++
      repaired.numbers.filter fun q => decide (v.surface.highest < q) }

/-- The frames of its group that an arrival brings back: all that are not here, when its group is
still kept and has the shards. -/
def VideoStream.rebuilds (st : VideoStream) (s : Surface) : Arrival → List Nat
  | .Frame _ => []
  | .Shard p =>
    let g := p.group.toNat
    if (s.keep_shard p).parity.contains g = true ∧
        Solvable ((push_shard (s.held g) p.index.toNat p.payload).map Prod.fst) (st.missing s g).length
    then st.missing s g else []

/-- The highest frame seen, with the arrival. -/
def Surface.top (s : Surface) (a : Arrival) : Nat := a.frames.foldl max s.highest

/-- How long a gap may stay open, once the arrival is there. -/
def Surface.patience_at (s : Surface) : Arrival → Nat
  | .Frame _ => patienceOf s.group
  | .Shard p => patienceOf p.data_shards.toNat

/-- The arrival brings back no frame that arrived or came back before and was forgotten, and the
stream does not get past the patience for a frame that came back ahead of it and did not arrive. -/
def VideoStream.fits (st : VideoStream) (v : Viewer) (a : Arrival) : Bool :=
  ((st.rebuilds v.surface a).all fun q => decide (q ∉ v.seen)) &&
    v.ahead.all fun q => decide (q ∈ a.frames ∨
      ¬(q < v.surface.top a ∧ GivenUp (v.surface.patience_at a) q (v.surface.top a)))

variable {st : VideoStream} {s : Surface} {v : Viewer} {a : Arrival}

/-! ## What one arrival does -/

/-- All that counts of an arrival. -/
structure Effect (st : VideoStream) (s : Surface) (a : Arrival) : Prop where
  kept : Kept st (s.arrive a).1
  highest : (s.arrive a).1.highest = s.top a
  numbers : (s.arrive a).2.numbers = st.rebuilds s a
  frames : ∀ q, (s.arrive a).1.frames.contains q = true →
    s.frames.contains q = true ∨ q ∈ a.frames ∨ q ∈ (s.arrive a).2.numbers
  gaps : ∀ q, q ∈ (s.arrive a).1.gaps ↔
    (q ∈ s.gaps ∨ s.highest < q ∧ q < s.top a) ∧ q ∉ a.frames ∧ q ∉ st.rebuilds s a ∧
      ¬GivenUp (s.patience_at a) q (s.top a)
  lost : ∀ q, q ∈ (s.arrive a).2.lost ↔
    (q ∈ s.gaps ∨ s.highest < q ∧ q < s.top a) ∧ q ∉ a.frames ∧ q ∉ st.rebuilds s a ∧
      GivenUp (s.patience_at a) q (s.top a)
  once : s.gaps.Nodup → (s.arrive a).1.gaps.Nodup ∧ (s.arrive a).2.lost.Nodup

theorem nodup_foldl_push_gap (news : List Nat) :
    ∀ {gaps : List Nat}, gaps.Nodup → (news.foldl push_gap gaps).Nodup := by
  induction news with
  | nil => exact fun h => h
  | cons x news ih =>
    intro gaps h
    apply ih
    unfold push_gap
    split
    · exact h
    · rename_i hnew
      rw [List.nodup_append]
      refine ⟨h, List.nodup_singleton x, fun y hy z hz => ?_⟩
      rw [List.mem_singleton] at hz
      rintro rfl
      subst hz
      simp [hy] at hnew

variable {repaired : Repaired} {q : Nat}

theorem nodup_age_gaps {s : Surface} (h : s.gaps.Nodup) (hlost : repaired.lost = []) :
    (s.age_gaps repaired).1.gaps.Nodup ∧ (s.age_gaps repaired).2.lost.Nodup := by
  unfold Surface.age_gaps
  simp [hlost]
  exact ⟨h.filter _, h.filter _⟩

theorem effect_frame (hk : Kept st s) (h1 : 1 ≤ q) (h2 : q ≤ st.groups * st.n) {bytes : List UInt8}
    (henc : (st.sent q).encode = .ok bytes) : Effect st s (.Frame (st.sent q)) := by
  have harrive : s.arrive (.Frame (st.sent q)) = s.frame (st.sent q) bytes := by
    simp only [Surface.arrive, henc]
  have hnumber := st.numbered q h1 h2
  have htop : s.top (.Frame (st.sent q)) = max s.highest q := by
    simp [Surface.top, Arrival.frames, hnumber]
  obtain ⟨hhighest, hgroup, hgaps⟩ := frame_gaps s (st.sent q) bytes
  rw [hnumber] at hhighest hgaps
  have hrange : ∀ x, s.highest < x ∧ x < max s.highest q ↔ s.highest < x ∧ x < q := by
    omega
  constructor
  · rw [harrive]
    exact kept_frame hk h1 h2 henc
  · rw [harrive, hhighest, htop]
  · rw [harrive]
    rfl
  · intro x hx
    rw [harrive] at hx
    unfold SortedMap.contains at hx ⊢
    rw [Option.isSome_iff_exists] at hx
    obtain ⟨found, hfound⟩ := hx
    rw [frame_frames, SortedMap.get?_eq_some_iff, hnumber] at hfound
    rcases SortedMap.mem_insert.mp (SortedMap.mem_of_mem_keepLast hfound) with heq | ⟨hold, -⟩
    · cases heq
      exact .inr (.inl (by simp [Arrival.frames, hnumber]))
    · left
      rw [SortedMap.get?_eq_some_iff.mpr hold]
      rfl
  · intro x
    rw [harrive, (hgaps x).1, htop, hrange]
    simp [Arrival.frames, hnumber, VideoStream.rebuilds, Surface.patience_at]
  · intro x
    rw [harrive, (hgaps x).2, htop, hrange]
    simp [Arrival.frames, hnumber, VideoStream.rebuilds, Surface.patience_at]
  · intro hnodup
    rw [harrive]
    refine nodup_age_gaps ?_ rfl
    unfold Surface.drop_gap Surface.notice_gaps
    apply List.Nodup.filter
    split
    · exact nodup_foldl_push_gap _ hnodup
    · exact hnodup

theorem aged_gaps (s : Surface) (hlost : repaired.lost = []) (q : Nat) :
    (q ∈ (s.age_gaps repaired).1.gaps ↔ q ∈ s.gaps ∧ ¬GivenUp (patienceOf s.group) q s.highest) ∧
      (q ∈ (s.age_gaps repaired).2.lost ↔ q ∈ s.gaps ∧ GivenUp (patienceOf s.group) q s.highest) := by
  have haged : s.aged q = true ↔ GivenUp (patienceOf s.group) q s.highest := by
    simp [Surface.aged, Surface.patience, GivenUp, patienceOf]
  simp [Surface.age_gaps, hlost, List.mem_filter, ← haged]

/-- A shard that leaves a surface with these gaps, and brings back what the condition says. -/
theorem effect_of_aged {p : Parity} {s' : Surface}
    (harrive : s.arrive (.Shard p) = s'.age_gaps repaired) (hkept : Kept st s')
    (hhighest : s'.highest = s.highest) (hgroup : s'.group = p.data_shards.toNat)
    (hlost : repaired.lost = []) (hnumbers : repaired.numbers = st.rebuilds s (.Shard p))
    (hgaps : s'.gaps = s.gaps.filter fun q => decide (q ∉ st.rebuilds s (.Shard p)))
    (hframes : ∀ q, s'.frames.contains q = true → s.frames.contains q = true ∨ q ∈ repaired.numbers) :
    Effect st s (.Shard p) := by
  have htop : s.top (.Shard p) = s.highest := rfl
  have hnumbers' : (s'.age_gaps repaired).2.numbers = repaired.numbers := rfl
  have hbase : ∀ q, (q ∈ s.gaps ∨ s.highest < q ∧ q < s.top (.Shard p)) ∧ q ∉ Arrival.frames (.Shard p) ∧
      q ∉ st.rebuilds s (.Shard p) ↔ q ∈ s'.gaps := by
    intro q
    rw [hgaps, List.mem_filter, decide_eq_true_eq, htop]
    simp only [Arrival.frames, List.not_mem_nil, not_false_eq_true, true_and]
    exact and_congr_left fun _ => or_iff_left (by omega)
  constructor
  · rw [harrive]
    exact ⟨hkept.frames, hkept.parity⟩
  · rw [harrive, htop, ← hhighest]
    rfl
  · rw [harrive, hnumbers', hnumbers]
  · intro q hq
    rw [harrive] at hq ⊢
    exact (hframes q hq).imp_right .inr
  · intro q
    rw [harrive, (aged_gaps s' hlost q).1, ← hbase, hgroup, hhighest]
    simp only [Surface.patience_at, htop, and_assoc]
  · intro q
    rw [harrive, (aged_gaps s' hlost q).2, ← hbase, hgroup, hhighest]
    simp only [Surface.patience_at, htop, and_assoc]
  · intro hnodup
    rw [harrive]
    exact nodup_age_gaps (hgaps ▸ hnodup.filter _) hlost

theorem effect_shard (hk : Kept st s) {g : Nat} (hg : g < st.groups) {p : Parity}
    (hp : p ∈ st.parity g) : Effect st s (.Shard p) := by
  obtain ⟨k, length, packed, hc⟩ := coded_of_parity (List.ne_nil_of_mem hp)
  have hshard := hc.shard hg hp
  have hkept := kept_keep_shard hk hp hshard.group
  have hforget : ∀ {s' : Surface}, Kept st s' → Kept st (s'.forget g) := fun h =>
    ⟨h.frames, fun g' held hmem => h.parity g' held (SortedMap.mem_erase.mp hmem).1⟩
  have hall : ∀ l : List Nat, l = l.filter fun q => decide (q ∉ ([] : List Nat)) := by simp
  cases hget : (s.keep_shard p).parity.get? g with
  | none =>
    have hnone : st.rebuilds s (.Shard p) = [] := by
      simp [VideoStream.rebuilds, hshard.group, SortedMap.contains, hget]
    refine effect_of_aged (recorded_dropped (by rw [hshard.group]; exact hget)) hkept rfl rfl rfl ?_ ?_ ?_
    · rw [hnone]
      rfl
    · rw [hnone]
      exact hall s.gaps
    · exact fun q hq => .inl hq
  | some held =>
    have hcontains : (s.keep_shard p).parity.contains g = true := by
      simp [SortedMap.contains, hget]
    have hrecorded := recorded_of_kept hk hg hp hget
    have harrive : s.arrive (.Shard p) = s.record_parity p := rfl
    generalize s.record_parity p = out at hrecorded harrive
    cases hrecorded with
    | complete hcomplete =>
      have hnone : st.rebuilds s (.Shard p) = [] := by
        simp [VideoStream.rebuilds, hshard.group, hcomplete]
      refine effect_of_aged harrive (hforget hkept) rfl rfl rfl ?_ ?_ ?_
      · rw [hnone]
        rfl
      · rw [hnone]
        exact hall s.gaps
      · exact fun q hq => .inl hq
    | @solved hmissing hsolve r hr =>
      have hsome : st.rebuilds s (.Shard p) = st.missing s g := by
        simp only [VideoStream.rebuilds, hshard.group]
        exact if_pos ⟨hcontains, hsolve⟩
      have hnumbers : r.2.numbers = st.missing s g := by
        rw [hr.emitted]
        simp [Repaired.numbers]
        refine (List.map_congr_left fun q hq => ?_).trans (List.map_id _)
        obtain ⟨h1, h2⟩ := le_of_mem_sequences hg (List.mem_of_mem_filter hq)
        exact st.numbered q h1 h2
      have hencode : ∀ q ∈ st.missing s g, ∃ bytes, (st.sent q).encode = .ok bytes :=
        fun q hq => sent_encodes hc (List.mem_of_mem_filter hq)
      refine effect_of_aged harrive (hforget ⟨?_, ?_⟩) hr.highest hr.group ?_ (hnumbers.trans hsome.symm)
        ?_ ?_
      · intro q bytes hmem
        rcases (hr.frames q bytes).mp hmem with ⟨hq, henc⟩ | ⟨-, hold⟩
        · obtain ⟨h1, h2⟩ := le_of_mem_sequences hg (List.mem_of_mem_filter hq)
          exact ⟨h1, h2, henc⟩
        · exact hk.frames q bytes hold
      · intro g' held' hmem
        rw [hr.parity] at hmem
        exact hkept.parity g' held' hmem
      · rw [hr.emitted]
      · rw [hsome]
        exact hr.gaps
      · intro q hq
        rw [hnumbers]
        exact ((hr.contains hencode q).mp hq).symm
    | waiting hmissing hsolve =>
      have hnone : st.rebuilds s (.Shard p) = [] := by
        simp only [VideoStream.rebuilds, hshard.group]
        exact if_neg fun h => hsolve h.2
      refine effect_of_aged harrive hkept rfl rfl rfl ?_ ?_ ?_
      · rw [hnone]
        rfl
      · rw [hnone]
        exact hall s.gaps
      · exact fun q hq => .inl hq

theorem effect (hk : Kept st s) (ha : st.Sends a) : Effect st s a := by
  cases a with
  | Frame frame =>
    obtain ⟨q, h1, h2, rfl, bytes, henc⟩ := ha
    exact effect_frame hk h1 h2 henc
  | Shard p =>
    obtain ⟨g, hg, hp⟩ := ha
    exact effect_shard hk hg hp

/-! ## What holds along the runs -/

/-- Where the surface and what is remembered stand after a history. -/
structure Remembers (st : VideoStream) (history : List (Arrival × Repaired)) (v : Viewer) : Prop where
  kept : Kept st v.surface
  seen : ∀ q, q ∈ v.seen ↔ ∃ e ∈ history, q ∈ e.1.frames ∨ q ∈ e.2.numbers
  present : ∀ q, v.surface.frames.contains q = true → q ∈ v.seen
  arrived : ∀ e ∈ history, ∀ q ∈ e.1.frames, q ≤ v.surface.highest
  noticed : ∀ e ∈ history, ∀ q ∈ e.2.numbers, v.surface.highest < q → q ∈ v.ahead
  once : v.surface.gaps.Nodup
  gaps : ∀ q ∈ v.surface.gaps, q < v.surface.highest ∧
    ∀ e ∈ history, q ∉ e.1.frames ∧ q ∉ e.2.lost ∧ (q ∈ e.2.numbers → q ∈ v.ahead)
  ahead : ∀ q ∈ v.ahead, q ≠ v.surface.highest ∧ (q < v.surface.highest → q ∈ v.surface.gaps) ∧
    (∃ e ∈ history, q ∈ e.2.numbers) ∧ ∀ e ∈ history, q ∉ e.1.frames
  lost : ∀ e ∈ history, ∀ q ∈ e.2.lost, q < v.surface.highest

variable {history : List (Arrival × Repaired)}

theorem remembers_start (st : VideoStream) : Remembers st [] .start := by
  constructor
  · exact kept_default st
  · simp [Viewer.start]
  · intro q hq
    cases hq
  all_goals simp [Viewer.start, Surface.default]

theorem le_top (s : Surface) (a : Arrival) : s.highest ≤ s.top a := by
  cases a <;> simp [Surface.top, Arrival.frames]

theorem frames_le_top (s : Surface) (hq : q ∈ a.frames) : q ≤ s.top a := by
  cases a <;> simp_all [Surface.top, Arrival.frames]

theorem Remembers.came (h : Remembers st history v)
    (hq : q ∈ v.surface.gaps ∨ v.surface.highest < q ∧ q < v.surface.top a) {e : Arrival × Repaired}
    (he : e ∈ history) : q ∉ e.1.frames ∧ q ∉ e.2.lost ∧ (q ∈ e.2.numbers → q ∈ v.ahead) := by
  rcases hq with hgap | ⟨hlow, -⟩
  · exact (h.gaps q hgap).2 e he
  · refine ⟨fun harrived => ?_, fun hlost => ?_, fun hcame => h.noticed e he q hcame hlow⟩
    · exact absurd (h.arrived e he q harrived) (Nat.not_le.mpr hlow)
    · exact absurd (h.lost e he q hlost) (Nat.not_lt.mpr hlow.le)

theorem rebuilds_nodup (st : VideoStream) (s : Surface) (a : Arrival) : (st.rebuilds s a).Nodup := by
  cases a with
  | Frame frame => exact List.nodup_nil
  | Shard p =>
    simp only [VideoStream.rebuilds]
    split
    · exact (List.nodup_range').filter _
    · exact List.nodup_nil

theorem rebuilds_of_frame (hq : q ∈ st.rebuilds s a) : a.frames = [] := by
  cases a with
  | Frame frame => cases hq
  | Shard p => rfl

/-- The arrival produces nothing a second time exactly when it fits. -/
theorem fresh_iff (h : Remembers st history v) (heffect : Effect st v.surface a) :
    Fresh history (a, (v.surface.arrive a).2) ↔ st.fits v a = true := by
  have hfits : st.fits v a = true ↔ (∀ q ∈ st.rebuilds v.surface a, q ∉ v.seen) ∧
      ∀ q ∈ v.ahead, q ∈ a.frames ∨
        ¬(q < v.surface.top a ∧ GivenUp (v.surface.patience_at a) q (v.surface.top a)) := by
    simp only [VideoStream.fits, Bool.and_eq_true, List.all_eq_true, decide_eq_true_eq]
  rw [hfits]
  constructor
  · rintro ⟨-, hagain⟩
    have hunseen : ∀ q ∈ st.rebuilds v.surface a, q ∉ v.seen := by
      intro q hq hseen
      obtain ⟨e, he, hcame⟩ := (h.seen q).mp hseen
      obtain ⟨hframes, hnumbers⟩ := (hagain e he).numbers q (heffect.numbers ▸ hq)
      exact hcame.elim hframes hnumbers
    refine ⟨hunseen, fun q hq => ?_⟩
    by_contra hpassed
    rw [not_or, not_not] at hpassed
    obtain ⟨hnot, hlt, hgiven⟩ := hpassed
    obtain ⟨hne, hgap, ⟨e, he, hcame⟩, -⟩ := h.ahead q hq
    have hopen : q ∈ v.surface.gaps ∨ v.surface.highest < q ∧ q < v.surface.top a := by
      rcases Nat.lt_or_gt_of_ne hne with hbelow | habove
      · exact .inl (hgap hbelow)
      · exact .inr ⟨habove, hlt⟩
    have hrebuilt : q ∉ st.rebuilds v.surface a :=
      fun hin => hunseen q hin ((h.seen q).mpr ⟨e, he, .inr hcame⟩)
    exact ((hagain e he).lost q ((heffect.lost q).mpr ⟨hopen, hnot, hrebuilt, hgiven⟩)).2.1 hcame
  · rintro ⟨hunseen, hahead⟩
    refine ⟨⟨?_, (heffect.once h.once).2, ?_, ?_⟩, fun e he => ⟨?_, ?_⟩⟩
    · rw [heffect.numbers]
      exact rebuilds_nodup st v.surface a
    · intro q hq
      rw [heffect.numbers] at hq
      simp [rebuilds_of_frame hq]
    · intro q hq
      obtain ⟨-, hnot, hrebuilt, -⟩ := (heffect.lost q).mp hq
      exact ⟨hnot, heffect.numbers ▸ hrebuilt⟩
    · intro q hq
      rw [heffect.numbers] at hq
      have hnew := hunseen q hq
      rw [h.seen] at hnew
      exact ⟨fun hin => hnew ⟨e, he, .inl hin⟩, fun hin => hnew ⟨e, he, .inr hin⟩⟩
    · intro q hq
      obtain ⟨hopen, hnot, -, hgiven⟩ := (heffect.lost q).mp hq
      obtain ⟨hframes, hlost, hcame⟩ := h.came hopen he
      refine ⟨hframes, fun hnumbers => ?_, hlost⟩
      have hlt : q < v.surface.top a := by
        rcases hopen with hgap | ⟨-, hlt⟩
        · exact (h.gaps q hgap).1.trans_le (le_top _ _)
        · exact hlt
      rcases hahead q (hcame hnumbers) with hin | hpassed
      · exact hnot hin
      · exact hpassed ⟨hlt, hgiven⟩

theorem remembers_arrive (h : Remembers st history v) (heffect : Effect st v.surface a)
    (hfits : st.fits v a = true) :
    Remembers st (history ++ [(a, (v.surface.arrive a).2)]) (v.arrive a) := by
  simp only [VideoStream.fits, Bool.and_eq_true, List.all_eq_true, decide_eq_true_eq] at hfits
  obtain ⟨hunseen, hahead⟩ := hfits
  have hin : ∀ {e}, e ∈ history ++ [(a, (v.surface.arrive a).2)] ↔
      e ∈ history ∨ e = (a, (v.surface.arrive a).2) := by simp
  have hexists : ∀ p : Arrival × Repaired → Prop,
      (∃ e ∈ history ++ [(a, (v.surface.arrive a).2)], p e) ↔
        (∃ e ∈ history, p e) ∨ p (a, (v.surface.arrive a).2) := by
    simp [or_and_right, exists_or]
  have hseen : ∀ q, q ∈ (v.arrive a).seen ↔
      q ∈ v.seen ∨ q ∈ a.frames ∨ q ∈ (v.surface.arrive a).2.numbers := by
    simp [Viewer.arrive]
  have hmem : ∀ q, q ∈ (v.arrive a).ahead ↔ q ∈ v.ahead ∧ q ∉ a.frames ∨
      q ∈ (v.surface.arrive a).2.numbers ∧ v.surface.highest < q := by
    simp [Viewer.arrive]
  have htop : (v.arrive a).surface.highest = v.surface.top a := heffect.highest
  have hle := le_top v.surface a
  constructor
  · exact heffect.kept
  · intro q
    rw [hseen, h.seen, hexists]
  · intro q hq
    rw [hseen]
    exact (heffect.frames q hq).imp_left (h.present q)
  · intro e he q hq
    rw [htop]
    rcases hin.mp he with he | rfl
    · exact (h.arrived e he q hq).trans hle
    · exact frames_le_top v.surface hq
  · intro e he q hq hlt
    rw [htop] at hlt
    rw [hmem]
    rcases hin.mp he with he | rfl
    · refine .inl ⟨h.noticed e he q hq (hle.trans_lt hlt), fun hframes => ?_⟩
      exact absurd (frames_le_top v.surface hframes) (Nat.not_le.mpr hlt)
    · exact .inr ⟨hq, hle.trans_lt hlt⟩
  · exact (heffect.once h.once).1
  · intro q hq
    obtain ⟨hopen, hnot, hrebuilt, hgiven⟩ := (heffect.gaps q).mp hq
    rw [htop]
    constructor
    · rcases hopen with hgap | ⟨-, hlt⟩
      · exact (h.gaps q hgap).1.trans_le hle
      · exact hlt
    · intro e he
      rcases hin.mp he with he | rfl
      · obtain ⟨hframes, hlost, hcame⟩ := h.came hopen he
        exact ⟨hframes, hlost, fun hnumbers => (hmem q).mpr (.inl ⟨hcame hnumbers, hnot⟩)⟩
      · refine ⟨hnot, fun hlost => hgiven ((heffect.lost q).mp hlost).2.2.2, fun hnumbers => ?_⟩
        exact absurd (heffect.numbers ▸ hnumbers) hrebuilt
  · intro q hq
    rw [htop]
    rcases (hmem q).mp hq with ⟨hold, hnot⟩ | ⟨hnumbers, hhigh⟩
    · obtain ⟨hne, hgap, ⟨e, he, hcame⟩, hframes⟩ := h.ahead q hold
      have hrebuilt : q ∉ st.rebuilds v.surface a :=
        fun hin => hunseen q hin ((h.seen q).mpr ⟨e, he, .inr hcame⟩)
      refine ⟨fun heq => ?_, fun hlt => ?_, ⟨e, hin.mpr (.inl he), hcame⟩, fun e' he' => ?_⟩
      · -- the highest number is the old one or the one that arrived
        cases a with
        | Frame frame =>
          simp only [Surface.top, Arrival.frames, List.foldl_cons, List.foldl_nil] at heq hnot
          simp only [List.mem_singleton] at hnot
          omega
        | Shard p => exact hne heq
      · rw [show (v.arrive a).surface.gaps = (v.surface.arrive a).1.gaps from rfl, heffect.gaps]
        refine ⟨?_, hnot, hrebuilt, fun hgiven => ?_⟩
        · rcases Nat.lt_or_gt_of_ne hne with hbelow | habove
          · exact .inl (hgap hbelow)
          · exact .inr ⟨habove, hlt⟩
        · exact (hahead q hold).elim hnot fun hpassed => hpassed ⟨hlt, hgiven⟩
      · rcases hin.mp he' with he' | rfl
        · exact hframes e' he'
        · exact hnot
    · rw [heffect.numbers] at hnumbers
      have hframes : a.frames = [] := rebuilds_of_frame hnumbers
      have hsame : v.surface.top a = v.surface.highest := by simp [Surface.top, hframes]
      rw [hsame]
      refine ⟨hhigh.ne', fun hlt => absurd hlt (Nat.not_lt.mpr hhigh.le),
        ⟨_, hin.mpr (.inr rfl), heffect.numbers ▸ hnumbers⟩, fun e he => ?_⟩
      rcases hin.mp he with he | rfl
      · exact fun harrived => absurd (h.arrived e he q harrived) (Nat.not_le.mpr hhigh)
      · simp [hframes]
  · intro e he q hq
    rw [htop]
    rcases hin.mp he with he | rfl
    · exact (h.lost e he q hq).trans_le hle
    · rcases ((heffect.lost q).mp hq).1 with hgap | ⟨-, hlt⟩
      · exact (h.gaps q hgap).1.trans_le hle
      · exact hlt

/-! ## Every run -/

theorem length_run (s : Surface) (l : List Arrival) : (s.run l).2.length = l.length := by
  induction l generalizing s with
  | nil => rfl
  | cons a l ih => simp [Surface.run, ih]

theorem viewer_surface (l : List Arrival) :
    (Runs.run Viewer.arrive .start l).surface = (Surface.default.run l).1 := by
  induction l using List.reverseRecOn with
  | nil => rfl
  | append_singleton l a ih =>
    rw [Runs.run_append_singleton, run_append]
    simp [Viewer.arrive, Surface.run, ih]

theorem history_snoc (l : List Arrival) (a : Arrival) :
    (l ++ [a]).zip (Surface.default.run (l ++ [a])).2 = l.zip (Surface.default.run l).2 ++
        [(a, ((Runs.run Viewer.arrive .start l).surface.arrive a).2)] := by
  rw [viewer_surface, run_append, List.zip_append (length_run _ l).symm]
  simp [Surface.run]

/-- Nothing happens twice along a run over a stream exactly when every arrival fits. -/
theorem repair_is_at_most_once_iff (st : VideoStream) (l : List Arrival) (hl : ∀ a ∈ l, st.Sends a) :
    AtMostOnce (VideoRepair.default.history l) ↔ Runs.steps Viewer.arrive st.fits .start l = true := by
  have hhistory : VideoRepair.default.history l = l.zip (Surface.default.run l).2 := by
    unfold VideoRepair.history
    rw [run_of_sends l hl]
    rfl
  rw [hhistory]
  suffices hboth : (AtMostOnce (l.zip (Surface.default.run l).2) ↔
      Runs.steps Viewer.arrive st.fits .start l = true) ∧
      (Runs.steps Viewer.arrive st.fits .start l = true →
        Remembers st (l.zip (Surface.default.run l).2) (Runs.run Viewer.arrive .start l)) from hboth.1
  clear hhistory
  induction l using List.reverseRecOn with
  | nil =>
    refine ⟨iff_of_true ⟨?_, List.Pairwise.nil⟩ rfl, fun _ => remembers_start st⟩
    intro e he
    cases he
  | append_singleton l a ih =>
    obtain ⟨hiff, hremembers⟩ := ih fun b hb => hl b (List.mem_append_left _ hb)
    rw [history_snoc, atMostOnce_snoc, Runs.steps_append, Bool.and_eq_true, hiff]
    refine ⟨and_congr_right fun hsteps => ?_, fun hsteps => ?_⟩
    · have h := hremembers hsteps
      exact fresh_iff h (effect h.kept (hl a (by simp)))
    · have h := hremembers hsteps.1
      rw [Runs.run_append_singleton]
      exact remembers_arrive h (effect h.kept (hl a (by simp))) hsteps.2

/-! ## A frame that comes back too early -/

theorem single_surface (q : Nat) :
    VideoFrame.surface ⟨1, UInt64.ofNat q, q == 1, none, [UInt8.ofNat q]⟩ = 1 := rfl

/-- A stream of five groups of one frame, each with a shard. -/
def singleStream : VideoStream where
  surface := 1
  n := 1
  groups := 5
  sent q := ⟨1, UInt64.ofNat q, q == 1, none, [UInt8.ofNat q]⟩
  shards _ := 1
  n_pos := Nat.one_pos
  counted := by decide
  numbered q h1 h2 := UInt64.toNat_ofNat_of_lt' (show q < 2 ^ 64 by omega)
  same := single_surface

def singleShard (g : Nat) : Parity := (singleStream.parity g).getD 0 ⟨0, 0, 0, 0, []⟩

theorem singleShard_sent : ∀ g < 5, singleShard g ∈ singleStream.parity g := by
  decide +kernel

theorem single_frame_sends (h1 : 1 ≤ q) (h2 : q ≤ 5) :
    singleStream.Sends (.Frame (singleStream.sent q)) := by
  refine ⟨q, h1, h2, rfl, VIDEO_FRAME :: (singleStream.sent q).body, ?_⟩
  exact if_neg (by simp [singleStream, MAX_VIDEO_FRAME_BYTES])

/-- The first frame is lost and its shard brings it back; then the others arrive. -/
def first_frame_lost : List Arrival :=
  [.Shard (singleShard 0), .Frame (singleStream.sent 2), .Frame (singleStream.sent 3),
    .Frame (singleStream.sent 4)]

theorem first_frame_lost_sends : ∀ a ∈ first_frame_lost, singleStream.Sends a := by
  intro a ha
  simp [first_frame_lost] at ha
  rcases ha with rfl | rfl | rfl | rfl
  · exact ⟨0, by decide, singleShard_sent 0 (by decide)⟩
  · exact single_frame_sends (by decide) (by decide)
  · exact single_frame_sends (by decide) (by decide)
  · exact single_frame_sends (by decide) (by decide)

/-- The frame that came back is reported lost afterwards. -/
theorem a_repaired_frame_is_reported_lost :
    ¬∀ (st : VideoStream) (l : List Arrival), (∀ a ∈ l, st.Sends a) →
      AtMostOnce (VideoRepair.default.history l) := by
  intro h
  have hagain := (h singleStream first_frame_lost first_frame_lost_sends).again
  rw [List.pairwise_iff_getElem] at hagain
  have hlost :=
    (hagain 0 3 (by decide +kernel) (by decide +kernel) (by decide)).lost 1 (by decide +kernel)
  exact hlost.2.1 (by decide +kernel)

theorem a_frame_repaired_in_order_is_repaired_once : AtMostOnce (VideoRepair.default.history
      [.Frame (singleStream.sent 1), .Frame (singleStream.sent 3), .Shard (singleShard 1)]) := by
  refine (repair_is_at_most_once_iff singleStream _ fun a ha => ?_).mpr (by decide +kernel)
  simp only [List.mem_cons, List.not_mem_nil, or_false] at ha
  rcases ha with rfl | rfl | rfl
  · exact single_frame_sends (by decide) (by decide)
  · exact single_frame_sends (by decide) (by decide)
  · exact ⟨1, by decide, singleShard_sent 1 (by decide)⟩

end multiplex_screen_session
