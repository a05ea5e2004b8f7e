-- What version vectors say about each other: `relation` is the pointwise
-- order of the counters, `joined` its least upper bound, and the next version
-- of an author stands strictly above everything it has observed.
import Multiplex.Domain.Replication

open Checks

namespace multiplex_domain

namespace ReplicationVersionVector

variable {v w u : ReplicationVersionVector} {replica_id : ReplicationReplicaId}

/-! ## Counters -/

variable {e : ReplicationReplicaId × Nat}

theorem counter_eq_of_mem (h : e ∈ v.counters.entries) : v.counter e.1 = e.2 := by
  unfold counter
  rw [SortedMap.get?_eq_some_iff.mpr h, Option.getD_some]

theorem mem_of_counter_pos (h : 0 < v.counter replica_id) :
    (replica_id, v.counter replica_id) ∈ v.counters.entries := by
  unfold counter at h ⊢
  cases hget : v.counters.get? replica_id with
  | none => simp [hget] at h
  | some c =>
    exact SortedMap.get?_eq_some_iff.mp hget

theorem counter_eq_zero_of_not_contains (h : v.counters.contains replica_id = false) :
    v.counter replica_id = 0 := by
  have hnone : v.counters.get? replica_id = none := by
    apply Option.not_isSome_iff_eq_none.mp
    rw [SortedMap.contains] at h
    simp [h]
  unfold counter
  rw [hnone, Option.getD_none]

/-! ## The relation -/

theorem less_iff : ((v.counters.entries.any fun e => decide (e.2 < w.counter e.1)) ||
      (w.counters.entries.any fun e => !v.counters.contains e.1 && decide (e.2 > 0))) = true ↔
      ∃ r, v.counter r < w.counter r := by
  simp only [Bool.or_eq_true, List.any_eq_true, decide_eq_true_eq, Bool.and_eq_true,
    Bool.not_eq_eq_eq_not, Bool.not_true]
  constructor
  · rintro (⟨e, he, hlt⟩ | ⟨e, he, habsent, hpos⟩)
    · exact ⟨e.1, by rwa [counter_eq_of_mem he]⟩
    · exact ⟨e.1, by rwa [counter_eq_zero_of_not_contains habsent, counter_eq_of_mem he]⟩
  · rintro ⟨r, hlt⟩
    cases hv : v.counters.contains r with
    | true =>
      obtain ⟨c, hc⟩ := Option.isSome_iff_exists.mp hv
      have hmem := SortedMap.get?_eq_some_iff.mp hc
      exact .inl ⟨(r, c), hmem, by rwa [counter_eq_of_mem hmem] at hlt⟩
    | false =>
      have hpos : 0 < w.counter r := by omega
      exact .inr ⟨_, mem_of_counter_pos hpos, hv, hpos⟩

theorem greater_iff : (v.counters.entries.any fun e => decide (e.2 > w.counter e.1)) = true ↔
      ∃ r, w.counter r < v.counter r := by
  simp only [List.any_eq_true, decide_eq_true_eq, gt_iff_lt]
  constructor
  · rintro ⟨e, he, hlt⟩
    exact ⟨e.1, by rwa [counter_eq_of_mem he]⟩
  · rintro ⟨r, hlt⟩
    exact ⟨_, mem_of_counter_pos (by omega), hlt⟩

theorem relation_flags (v w : ReplicationVersionVector) :
    ∃ less greater : Bool, (less = true ↔ ¬ w.counter ≤ v.counter) ∧
      (greater = true ↔ ¬ v.counter ≤ w.counter) ∧
      v.relation w = match less, greater with
        | false, false => .Equal
        | true, false => .Before
        | false, true => .After
        | true, true => .Concurrent := by
  refine ⟨_, _, less_iff.trans ?_, greater_iff.trans ?_, rfl⟩
  · simp [Pi.le_def]
  · simp [Pi.le_def]

theorem relation_before_iff : v.relation w = .Before ↔ v.counter < w.counter := by
  obtain ⟨less, greater, hless, hgreater, heq⟩ := relation_flags v w
  rw [heq, lt_iff_le_not_ge]
  cases less <;> cases greater <;> simp_all

theorem relation_after_iff : v.relation w = .After ↔ w.counter < v.counter := by
  obtain ⟨less, greater, hless, hgreater, heq⟩ := relation_flags v w
  rw [heq, lt_iff_le_not_ge]
  cases less <;> cases greater <;> simp_all

theorem relation_equal_iff : v.relation w = .Equal ↔ v.counter = w.counter := by
  obtain ⟨less, greater, hless, hgreater, heq⟩ := relation_flags v w
  rw [heq, le_antisymm_iff (a := v.counter)]
  cases less <;> cases greater <;> simp_all

theorem relation_concurrent (hequal : v.counter ≠ w.counter) (hbefore : ¬ v.counter < w.counter)
    (hafter : ¬ w.counter < v.counter) : v.relation w = .Concurrent := by
  cases h : v.relation w with
  | Before => exact absurd (relation_before_iff.mp h) hbefore
  | Equal => exact absurd (relation_equal_iff.mp h) hequal
  | After => exact absurd (relation_after_iff.mp h) hafter
  | Concurrent => rfl

/-! ## Valid vectors -/

theorem counter_pos_of_validate (h : v.validate = .ok ()) (he : e ∈ v.counters.entries) :
    0 < e.2 := by
  unfold validate at h
  simp only [bind_ok_iff, refuseIf_ok_iff, forM_ok_iff] at h
  obtain ⟨_, _, hentries⟩ := h
  obtain ⟨_, _, hne⟩ := hentries e he
  exact Nat.pos_of_ne_zero hne

theorem eq_of_counter_eq (hv : v.validate = .ok ()) (hw : w.validate = .ok ())
    (h : v.counter = w.counter) : v = w := by
  have hsub : ∀ {v w : ReplicationVersionVector}, v.validate = .ok () → v.counter = w.counter →
      ∀ r c, v.counters.get? r = some c → w.counters.get? r = some c := by
    intro v w hv h r c hc
    have hmem := SortedMap.get?_eq_some_iff.mp hc
    have hw : w.counter r = c := by rw [← h]; exact counter_eq_of_mem hmem
    rw [SortedMap.get?_eq_some_iff, ← hw]
    apply mem_of_counter_pos
    rw [hw]
    exact counter_pos_of_validate hv hmem
  apply ReplicationVersionVector.ext
  apply SortedMap.ext_get?
  intro r
  ext c
  exact ⟨hsub hv h r c, hsub hw h.symm r c⟩

/-! ## Join and increment -/

theorem counter_insert_self {counters : SortedMap ReplicationReplicaId Nat} {c : Nat} :
    counter ⟨counters.insert replica_id c⟩ replica_id = c := by
  unfold counter
  rw [SortedMap.get?_insert_self, Option.getD_some]

variable {r : ReplicationReplicaId} {entries : List (ReplicationReplicaId × Nat)}

theorem counter_insert_of_ne {counters : SortedMap ReplicationReplicaId Nat} {c : Nat}
    (h : r ≠ replica_id) : counter ⟨counters.insert replica_id c⟩ r = counter ⟨counters⟩ r := by
  unfold counter
  rw [SortedMap.get?_insert_of_ne h]

theorem counter_raise (counters : SortedMap ReplicationReplicaId Nat)
    (e : ReplicationReplicaId × Nat) (r : ReplicationReplicaId) : counter ⟨raise counters e⟩ r =
      if r = e.1 then max (counter ⟨counters⟩ r) e.2 else counter ⟨counters⟩ r := by
  unfold raise
  split
  case h_1 current hget =>
    split
    case isTrue heq =>
      rw [heq, counter_insert_self]
      unfold counter
      rw [hget, Option.getD_some]
    case isFalse hne => exact counter_insert_of_ne hne
  case h_2 hget =>
    split
    case isTrue heq =>
      rw [heq, counter_insert_self]
      unfold counter
      rw [hget, Option.getD_none, Nat.zero_max]
    case isFalse hne => exact counter_insert_of_ne hne

theorem counter_foldl_raise (entries : List (ReplicationReplicaId × Nat)) :
    ∀ (counters : SortedMap ReplicationReplicaId Nat) (r : ReplicationReplicaId),
      counter ⟨entries.foldl raise counters⟩ r =
        entries.foldl (fun c e => if r = e.1 then max c e.2 else c) (counter ⟨counters⟩ r) := by
  induction entries with
  | nil => exact fun _ _ => rfl
  | cons e entries ih =>
    intro counters r
    rw [List.foldl_cons, List.foldl_cons, ih, counter_raise]

theorem foldl_raise_absent (h : ∀ e ∈ entries, r ≠ e.1) (c : Nat) :
    entries.foldl (fun c e => if r = e.1 then max c e.2 else c) c = c := by
  induction entries with
  | nil => rfl
  | cons e entries ih =>
    rw [List.forall_mem_cons] at h
    rw [List.foldl_cons, if_neg h.1, ih h.2]

theorem foldl_raise_present (hsorted : entries.Pairwise fun a b => a.1 < b.1) (he : e ∈ entries)
    (c : Nat) : entries.foldl (fun c f => if e.1 = f.1 then max c f.2 else c) c = max c e.2 := by
  induction entries with
  | nil => exact absurd he List.not_mem_nil
  | cons f entries ih =>
    obtain ⟨hhead, htail⟩ := List.pairwise_cons.mp hsorted
    rw [List.foldl_cons]
    rcases List.mem_cons.mp he with rfl | he
    · rw [if_pos rfl]
      exact foldl_raise_absent (fun g hg => (hhead g hg).ne) _
    · rw [if_neg (hhead e he).ne', ih htail he]

theorem counter_joined (h : v.joined w = .ok u) : u.counter = v.counter ⊔ w.counter := by
  unfold joined at h
  simp only [bind_ok_iff, pure_ok_iff] at h
  obtain ⟨_, _, rfl⟩ := h
  funext r
  rw [counter_foldl_raise, Pi.sup_apply]
  cases hget : w.counters.get? r with
  | none =>
    have habsent : ∀ e ∈ w.counters.entries, r ≠ e.1 := by
      rintro e he rfl
      exact SortedMap.get?_eq_none_iff.mp hget e.2 he
    have hzero : w.counter r = 0 := by
      unfold counter
      rw [hget, Option.getD_none]
    rw [foldl_raise_absent habsent, hzero]
    exact (max_eq_left (Nat.zero_le _)).symm
  | some c =>
    have hmem := SortedMap.get?_eq_some_iff.mp hget
    rw [foldl_raise_present w.counters.sorted hmem]
    rw [← counter_eq_of_mem hmem]

theorem counter_increment (h : v.increment replica_id = .ok u) :
    u.counter = Function.update v.counter replica_id (v.counter replica_id + 1) := by
  unfold increment at h
  simp only [bind_ok_iff] at h
  obtain ⟨_, _, h⟩ := h
  split at h
  case h_1 next hnext =>
    rw [pure_ok_iff] at h
    subst h
    have hnext : next = v.counter replica_id + 1 := by
      unfold checked_add at hnext
      split at hnext
      · exact (Option.some.inj hnext).symm
      · cases hnext
    funext r
    by_cases hr : r = replica_id
    · rw [hr, counter_insert_self, Function.update_self, hnext]
    · rw [counter_insert_of_ne hr, Function.update_of_ne hr]
  case h_2 => exact absurd h (by simp)

end ReplicationVersionVector

/-! ## The next version -/

open ReplicationVersionVector

theorem isLUB_foldlM_joined (policy : ReplicationPolicy)
    (observed : List ReplicationVersionVector) :
    ∀ (v u : ReplicationVersionVector) (seen : Set (ReplicationReplicaId → Nat)),
      IsLUB seen v.counter → (observed.foldlM (fun vector observed_vector => do
        policy.validate_vector observed_vector
        vector.joined observed_vector) v) = .ok u →
      IsLUB (seen ∪ {c | ∃ w ∈ observed, c = w.counter}) u.counter := by
  induction observed with
  | nil =>
    intro v u seen hseen h
    rw [List.foldlM_nil, pure_ok_iff] at h
    subst h
    simpa using hseen
  | cons w observed ih =>
    intro v u seen hseen h
    simp only [List.foldlM_cons, bind_ok_iff] at h
    obtain ⟨joined, ⟨_, _, hjoined⟩, hrest⟩ := h
    have hlub : IsLUB (seen ∪ {w.counter}) joined.counter := by
      rw [counter_joined hjoined]
      exact hseen.union isLUB_singleton
    have hall := ih joined u _ hlub hrest
    have hset : seen ∪ {c | ∃ x ∈ w :: observed, c = x.counter} =
        seen ∪ {w.counter} ∪ {c | ∃ x ∈ observed, c = x.counter} := by
      ext c
      simp only [List.mem_cons, Set.mem_union, Set.mem_ofPred_eq, Set.mem_singleton_iff,
        exists_eq_or_imp, or_assoc]
    rwa [hset]

variable {author : ReplicationReplicaId} {observed : List ReplicationVersionVector}

/-- The next version: its counters are the join of the observed ones with the
author's raised by one, and the policy takes it. -/
theorem next_version_ok {policy : ReplicationPolicy} {operation : ReplicationOperation}
    {version : ReplicatedVersion}
    (h : policy.next_version author observed operation = .ok version) :
    version.author = author ∧ version.operation = operation ∧
      policy.validate_version version = .ok () ∧
      ∃ join, IsLUB {c | ∃ w ∈ observed, c = w.counter} join ∧
        version.vector.counter = Function.update join author (join author + 1) := by
  unfold ReplicationPolicy.next_version at h
  rw [bind_ok_iff] at h
  obtain ⟨_, _, h⟩ := h
  split at h
  case h_1 =>
    simp at h
    obtain ⟨joined, hjoined, vector, hvector, hnew⟩ := h
    unfold ReplicatedVersion.new at hnew
    simp only [bind_ok_iff, pure_ok_iff] at hnew
    obtain ⟨_, hvalid, rfl⟩ := hnew
    have hempty : IsLUB ∅ ReplicationVersionVector.default.counter :=
      isLUB_empty_iff.mpr fun _ _ => Nat.zero_le _
    have hlub := isLUB_foldlM_joined policy observed _ joined ∅ hempty hjoined
    rw [Set.empty_union] at hlub
    exact ⟨rfl, rfl, hvalid, joined.counter, hlub, counter_increment hvector⟩
  case h_2 => exact absurd h (by simp)
  case h_3 => exact absurd h (by simp)

theorem observed_lt_next {join next : ReplicationReplicaId → Nat}
    (hjoin : IsLUB {c | ∃ w ∈ observed, c = w.counter} join)
    (hnext : next = Function.update join author (join author + 1)) {w : ReplicationVersionVector}
    (hw : w ∈ observed) : w.counter < next := by
  have hle : w.counter ≤ join := hjoin.1 ⟨w, hw, rfl⟩
  apply lt_of_le_of_lt hle
  rw [hnext]
  exact lt_update_self_iff.mpr (Nat.lt_succ_self _)

end multiplex_domain
