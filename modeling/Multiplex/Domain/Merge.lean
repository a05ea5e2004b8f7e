-- The merge of two documents: the candidates of each key from both sides,
-- reduced to the ones no other dominates. The result is determined by which
-- candidates stand under which key.
import Multiplex.Domain.Validation

open Checks SortedList Maxima

namespace multiplex_domain

/-! ## Reducing the candidates of a key -/

inductive ReplicationAuditOutcome where
  | Retained
  | Coalesced
  | Advanced
  | Deleted
  | ConflictPreserved
  deriving DecidableEq

structure ReplicationAuditEvent where
  sequence : Nat
  outcome : ReplicationAuditOutcome
  candidate_count : Nat
  deriving DecidableEq

structure ReplicationMerge where
  document : ReplicationDocument
  audit_events : List ReplicationAuditEvent
  deriving DecidableEq

def dominated (candidates : List ReplicatedVersion) (candidate_index : Nat)
    (candidate : ReplicatedVersion) : Bool :=
  candidates.zipIdx.any fun other =>
    decide (candidate_index ≠ other.2) &&
      decide (candidate.vector.relation other.1.vector = .Before)

def maximal_candidates (candidates : List ReplicatedVersion) : List ReplicatedVersion :=
  (candidates.zipIdx.filter fun c => !dominated candidates c.2 c.1).map Prod.fst

def reduction_outcome (maximal : List ReplicatedVersion) (distinct : Nat) (coalesced : Bool) :
    ReplicationAuditOutcome :=
  if maximal.length > 1 then .ConflictPreserved
  else if (maximal.head?.map fun c => c.operation.is_delete) = some true then .Deleted
  else if maximal.length < distinct then .Advanced
  else if coalesced then .Coalesced
  else .Retained

def reduce_candidates (candidates : List ReplicatedVersion) :
    Checked (List ReplicatedVersion × ReplicationAuditOutcome) := do
  validate_no_equivocation candidates
  let original_len := candidates.length
  let candidates := dropRepeats (candidates.insertionSort (· ≤ ·))
  let coalesced := decide (candidates.length < original_len)
  let maximal := (maximal_candidates candidates).insertionSort (· ≤ ·)
  refuseIf .TooManyCandidates (maximal.length > MAX_REPLICATION_CANDIDATES_PER_ENTRY)
  return (maximal, reduction_outcome maximal candidates.length coalesced)

/-! ## Merging -/

/-- `entry(key).or_default().extend(candidates)`. -/
def collect (candidates_by_key : SortedMap ReplicationRecordKey (List ReplicatedVersion))
    (entry : ReplicationEntry) : SortedMap ReplicationRecordKey (List ReplicatedVersion) :=
  candidates_by_key.insert entry.key
    ((candidates_by_key.get? entry.key).getD [] ++ entry.candidates)

/-- The loop over the collected keys, from the given index on. -/
def merge_entries : Nat → List (ReplicationRecordKey × List ReplicatedVersion) →
    Checked (List ReplicationEntry × List ReplicationAuditEvent)
  | _, [] => .ok ([], [])
  | index, (key, candidates) :: rest => do
    let (candidates, outcome) ← reduce_candidates candidates
    -- the sequence is a `u32` and the count a `u8`
    refuseIf .TooManyEntries (index + 1 ≥ 2 ^ 32)
    refuseIf .TooManyCandidates (candidates.length ≥ 2 ^ 8)
    let (entries, audit_events) ← merge_entries (index + 1) rest
    return (⟨key, candidates⟩ :: entries, ⟨index + 1, outcome, candidates.length⟩ :: audit_events)

def merge_replication_documents (left right : ReplicationDocument) (policy : ReplicationPolicy) :
    Checked ReplicationMerge := do
  left.validate policy
  right.validate policy
  refuseIf .WorkspaceMismatch (left.workspace_id ≠ right.workspace_id)
  let candidates_by_key := (left.entries ++ right.entries).foldl collect SortedMap.empty
  let (entries, audit_events) ← merge_entries 0 candidates_by_key.entries
  let document ← ReplicationDocument.new left.workspace_id entries policy
  return ⟨document, audit_events⟩

/-! ## What a reduction keeps -/

def reduced (candidates : List ReplicatedVersion) : List ReplicatedVersion :=
  (maximal_candidates (dropRepeats (candidates.insertionSort (· ≤ ·)))).insertionSort (· ≤ ·)

/-- The counters of a candidate, which the reduction ranks it by. -/
def counters (c : ReplicatedVersion) : ReplicationReplicaId → Nat := c.vector.counter

variable {candidates cs : List ReplicatedVersion} {c : ReplicatedVersion}
  {key : ReplicationRecordKey}

theorem dominated_iff {i : Nat} (h : (c, i) ∈ candidates.zipIdx) :
    dominated candidates i c = true ↔ ∃ other ∈ candidates, counters c < counters other := by
  unfold dominated
  simp only [List.any_eq_true, Bool.and_eq_true, decide_eq_true_eq,
    ReplicationVersionVector.relation_before_iff]
  constructor
  · rintro ⟨⟨other, j⟩, hmem, _, hlt⟩
    exact ⟨other, List.fst_mem_of_mem_zipIdx hmem, hlt⟩
  · rintro ⟨other, hmem, hlt⟩
    obtain ⟨j, hj, hget⟩ := List.getElem_of_mem hmem
    refine ⟨(other, j), List.mk_mem_zipIdx_iff_getElem?.mpr ?_, ?_, hlt⟩
    · rw [List.getElem?_eq_getElem hj, hget]
    · -- a candidate does not dominate itself
      rintro rfl
      have hc := List.mk_mem_zipIdx_iff_getElem?.mp h
      rw [List.getElem?_eq_getElem hj, hget] at hc
      rw [Option.some.inj hc] at hlt
      exact lt_irrefl _ hlt

theorem mem_maximal_candidates :
    c ∈ maximal_candidates candidates ↔ MaximalFor (· ∈ candidates) counters c := by
  unfold maximal_candidates
  rw [maximalFor_iff, List.mem_map]
  constructor
  · rintro ⟨⟨c, i⟩, hmem, rfl⟩
    rw [List.mem_filter] at hmem
    refine ⟨List.fst_mem_of_mem_zipIdx hmem.1, fun other hother hlt => ?_⟩
    simp [(dominated_iff hmem.1).mpr ⟨other, hother, hlt⟩] at hmem
  · rintro ⟨hmem, htop⟩
    obtain ⟨i, hi, hget⟩ := List.getElem_of_mem hmem
    have hidx : (c, i) ∈ candidates.zipIdx := by
      apply List.mk_mem_zipIdx_iff_getElem?.mpr
      rw [List.getElem?_eq_getElem hi, hget]
    refine ⟨(c, i), List.mem_filter.mpr ⟨hidx, ?_⟩, rfl⟩
    rw [Bool.not_eq_true', ← Bool.not_eq_true, dominated_iff hidx]
    rintro ⟨other, hother, hlt⟩
    exact htop other hother hlt

section
variable (candidates : List ReplicatedVersion)

theorem maximal_candidates_sublist : (maximal_candidates candidates).Sublist candidates := by
  have h := (List.filter_sublist (p := fun c => !dominated candidates c.2 c.1)
    (l := candidates.zipIdx)).map Prod.fst
  rwa [List.zipIdx_map_fst] at h

theorem reduced_eq :
    reduced candidates = maximal_candidates (dropRepeats (candidates.insertionSort (· ≤ ·))) := by
  apply insertionSort_of_strict
  exact (strict_dropRepeats (List.pairwise_insertionSort _ candidates)).sublist
    (maximal_candidates_sublist _)

theorem strict_reduced : (reduced candidates).Pairwise (· < ·) := by
  rw [reduced_eq]
  exact (strict_dropRepeats (List.pairwise_insertionSort _ candidates)).sublist
    (maximal_candidates_sublist _)

end

theorem mem_reduced :
    c ∈ reduced candidates ↔ MaximalFor (· ∈ {x | x ∈ candidates}) counters c := by
  unfold reduced
  rw [List.mem_insertionSort, mem_maximal_candidates]
  simp

variable {cs' : List ReplicatedVersion} {entries : List ReplicationEntry}
  {l : List (ReplicationRecordKey × List ReplicatedVersion)}

theorem reduced_congr (h : ∀ c, MaximalFor (· ∈ {x | x ∈ cs}) counters c ↔
      MaximalFor (· ∈ {x | x ∈ cs'}) counters c) : reduced cs = reduced cs' :=
  eq_of_mem_iff (strict_reduced cs) (strict_reduced cs') fun c =>
    mem_reduced.trans ((h c).trans mem_reduced.symm)

theorem reduced_congr_mem (h : ∀ c, c ∈ cs ↔ c ∈ cs') : reduced cs = reduced cs' := by
  apply reduced_congr
  simp [h]

theorem mem_of_mem_reduced (h : c ∈ reduced cs) : c ∈ cs := (mem_reduced.mp h).prop

theorem reduced_subperm (cs : List ReplicatedVersion) : (reduced cs).Subperm cs :=
  (nodup_of_strict (strict_reduced cs)).subperm fun _ => mem_of_mem_reduced

theorem reduced_append_reduced (cs ds : List ReplicatedVersion) :
    reduced (reduced cs ++ ds) = reduced (cs ++ ds) := by
  apply reduced_congr
  intro c
  have hleft : {x | x ∈ reduced cs ++ ds} =
      {y | MaximalFor (· ∈ {x | x ∈ cs}) counters y} ∪ {x | x ∈ ds} := by
    ext x
    simp [mem_reduced]
  have hright : {x | x ∈ cs ++ ds} = {x | x ∈ cs} ∪ {x | x ∈ ds} := by
    ext x
    simp
  rw [hleft, hright]
  exact maximalFor_reduced_union (List.finite_toSet cs)

theorem kept_or_below (h : c ∈ cs) :
    c ∈ reduced cs ∨ ∃ d ∈ reduced cs, counters c < counters d := by
  simp only [mem_reduced]
  exact maximal_or_below counters (List.finite_toSet cs) h

theorem reduce_candidates_ok_iff {kept : List ReplicatedVersion}
    {outcome : ReplicationAuditOutcome} : reduce_candidates cs = .ok (kept, outcome) ↔
      NoEquivocation cs ∧ (reduced cs).length ≤ MAX_REPLICATION_CANDIDATES_PER_ENTRY ∧
        kept = reduced cs ∧
        outcome = reduction_outcome (reduced cs) (dropRepeats (cs.insertionSort (· ≤ ·))).length
          (decide ((dropRepeats (cs.insertionSort (· ≤ ·))).length < cs.length)) := by
  unfold reduce_candidates
  simp only [bind_ok_iff, refuseIf_ok_iff, pure_ok_iff, Prod.mk.injEq, not_lt]
  constructor
  · rintro ⟨_, heq, _, hle, rfl, rfl⟩
    exact ⟨validate_no_equivocation_ok_iff.mp heq, hle, rfl, rfl⟩
  · rintro ⟨heq, hle, rfl, rfl⟩
    exact ⟨(), validate_no_equivocation_ok_iff.mpr heq, (), hle, rfl, rfl⟩

theorem reduce_candidates_perm (h : cs.Perm cs') :
    reduce_candidates cs = reduce_candidates cs' := by
  unfold reduce_candidates
  rw [validate_no_equivocation_congr fun c => h.mem_iff, insertionSort_eq_of_perm h,
    h.length_eq]

/-! ## The candidates under each key -/

def candidatesUnder (entries : List ReplicationEntry) (key : ReplicationRecordKey) :
    List ReplicatedVersion :=
  (entries.filter fun e => decide (e.key = key)).flatMap ReplicationEntry.candidates

def keysOf (entries : List ReplicationEntry) : List ReplicationRecordKey :=
  dropRepeats ((entries.map ReplicationEntry.key).insertionSort (· ≤ ·))

theorem mem_candidatesUnder :
    c ∈ candidatesUnder entries key ↔ ∃ e ∈ entries, e.key = key ∧ c ∈ e.candidates := by
  unfold candidatesUnder
  simp [and_assoc]

theorem candidatesUnder_append (l l' : List ReplicationEntry) (key : ReplicationRecordKey) :
    candidatesUnder (l ++ l') key = candidatesUnder l key ++ candidatesUnder l' key := by
  unfold candidatesUnder
  rw [List.filter_append, List.flatMap_append]

theorem candidatesUnder_of_not_mem {l : List ReplicationEntry}
    (h : key ∉ l.map ReplicationEntry.key) : candidatesUnder l key = [] := by
  apply List.eq_nil_iff_forall_not_mem.mpr
  intro c hc
  obtain ⟨e, he, rfl, _⟩ := mem_candidatesUnder.mp hc
  exact h (List.mem_map_of_mem he)

/-- With no key twice, the candidates under a key are those of its entry. -/
theorem candidatesUnder_of_mem {l : List ReplicationEntry}
    (hnodup : (l.map ReplicationEntry.key).Nodup) {e : ReplicationEntry} (he : e ∈ l) :
    candidatesUnder l e.key = e.candidates := by
  have hone : ∀ {f : ReplicationEntry}, f ∈ l → f.key = e.key → f = e := fun hf hkey =>
    List.inj_on_of_nodup_map hnodup hf he hkey
  have hfilter : l.filter (fun f => decide (f.key = e.key)) = [e] := by
    apply List.perm_singleton.mp
    refine (List.perm_ext_iff_of_nodup (hnodup.of_map _ |>.filter _)
      (List.nodup_singleton e)).mpr fun f => ?_
    rw [List.mem_filter, decide_eq_true_eq, List.mem_singleton]
    constructor
    · exact fun h => hone h.1 h.2
    · rintro rfl
      exact ⟨he, rfl⟩
  unfold candidatesUnder
  rw [hfilter, List.flatMap_singleton]

theorem mem_keysOf : key ∈ keysOf entries ↔ key ∈ entries.map ReplicationEntry.key := by
  unfold keysOf
  rw [mem_dropRepeats, List.mem_insertionSort]

theorem strict_keysOf (entries : List ReplicationEntry) : (keysOf entries).Pairwise (· < ·) :=
  strict_dropRepeats (List.pairwise_insertionSort _ _)

theorem keysOf_congr {l l' : List ReplicationEntry}
    (h : ∀ key, key ∈ l.map ReplicationEntry.key ↔ key ∈ l'.map ReplicationEntry.key) :
    keysOf l = keysOf l' :=
  eq_of_mem_iff (strict_keysOf l) (strict_keysOf l') fun key =>
    mem_keysOf.trans ((h key).trans mem_keysOf.symm)

theorem get?_collect (entries : List ReplicationEntry) (key : ReplicationRecordKey) :
    ∀ by_key : SortedMap ReplicationRecordKey (List ReplicatedVersion),
      (entries.foldl collect by_key).get? key =
        if key ∈ entries.map ReplicationEntry.key
        then some ((by_key.get? key).getD [] ++ candidatesUnder entries key)
        else by_key.get? key := by
  induction entries with
  | nil => exact fun by_key => rfl
  | cons e entries ih =>
    intro by_key
    have hunder : candidatesUnder (e :: entries) key =
        candidatesUnder [e] key ++ candidatesUnder entries key :=
      candidatesUnder_append [e] entries key
    rw [List.foldl_cons, ih, hunder]
    simp only [List.map_cons, List.mem_cons]
    unfold collect
    by_cases hkey : key = e.key
    · subst hkey
      have hself : candidatesUnder [e] e.key = e.candidates := by simp [candidatesUnder]
      rw [SortedMap.get?_insert_self, Option.getD_some, if_pos (Or.inl rfl), hself,
        List.append_assoc]
      by_cases hlater : e.key ∈ entries.map ReplicationEntry.key
      · rw [if_pos hlater]
      · rw [if_neg hlater, candidatesUnder_of_not_mem hlater, List.append_nil]
    · have hnone : candidatesUnder [e] key = [] :=
        candidatesUnder_of_not_mem (by simpa using hkey)
      rw [SortedMap.get?_insert_of_ne hkey, hnone, List.nil_append]
      simp [hkey]

theorem collect_entries (entries : List ReplicationEntry) :
    (entries.foldl collect SortedMap.empty).entries =
      (keysOf entries).map fun key => (key, candidatesUnder entries key) := by
  let expected : SortedMap ReplicationRecordKey (List ReplicatedVersion) :=
    ⟨(keysOf entries).map fun key => (key, candidatesUnder entries key),
      List.pairwise_map.mpr (strict_keysOf entries)⟩
  have hsame : entries.foldl collect SortedMap.empty = expected := by
    apply SortedMap.ext_get?
    intro key
    rw [get?_collect]
    split
    case isTrue hkey =>
      symm
      apply SortedMap.get?_eq_some_iff.mpr
      exact List.mem_map.mpr ⟨key, mem_keysOf.mpr hkey, rfl⟩
    case isFalse hkey =>
      symm
      apply SortedMap.get?_eq_none_iff.mpr
      intro cs hmem
      obtain ⟨key', hkey', heq⟩ := List.mem_map.mp hmem
      obtain rfl := congrArg Prod.fst heq
      exact hkey (mem_keysOf.mp hkey')
  rw [hsame]

/-! ## What a merge returns -/

def mergedEntries (entries : List ReplicationEntry) : List ReplicationEntry :=
  (keysOf entries).map fun key => ⟨key, reduced (candidatesUnder entries key)⟩

/-- Candidates that can be reduced: no vector stands for two of them, and few
enough are left. -/
def Reducible (cs : List ReplicatedVersion) : Prop :=
  NoEquivocation cs ∧ (reduced cs).length ≤ MAX_REPLICATION_CANDIDATES_PER_ENTRY

theorem merge_entries_ok :
    ∀ {index : Nat} {entries : List ReplicationEntry} {events : List ReplicationAuditEvent},
      merge_entries index l = .ok (entries, events) →
      entries = l.map (fun p => ⟨p.1, reduced p.2⟩) ∧ ∀ p ∈ l, Reducible p.2 := by
  induction l with
  | nil =>
    intro index entries events h
    simp only [merge_entries, Except.ok.injEq, Prod.mk.injEq] at h
    exact ⟨h.1.symm, fun p hp => absurd hp List.not_mem_nil⟩
  | cons p l ih =>
    intro index entries events h
    unfold merge_entries at h
    simp only [bind_ok_iff, refuseIf_ok_iff, pure_ok_iff, Prod.mk.injEq] at h
    obtain ⟨⟨kept, outcome⟩, hreduce, _, _, _, _, ⟨rest, events'⟩, hrest, rfl, _⟩ := h
    obtain ⟨hconsistent, hfew, rfl, _⟩ := reduce_candidates_ok_iff.mp hreduce
    obtain ⟨rfl, hall⟩ := ih hrest
    exact ⟨rfl, List.forall_mem_cons.mpr ⟨⟨hconsistent, hfew⟩, hall⟩⟩

theorem merge_entries_succeeds :
    ∀ {index : Nat}, index + l.length < 2 ^ 32 → (∀ p ∈ l, Reducible p.2) →
      ∃ events, merge_entries index l = .ok (l.map fun p => ⟨p.1, reduced p.2⟩, events) := by
  induction l with
  | nil => exact fun _ _ => ⟨[], rfl⟩
  | cons p l ih =>
    intro index hindex hall
    obtain ⟨hp, hl⟩ := List.forall_mem_cons.mp hall
    rw [List.length_cons] at hindex
    obtain ⟨events, hrest⟩ := @ih (index + 1) (by omega) hl
    obtain ⟨outcome, hreduce⟩ : ∃ outcome, reduce_candidates p.2 = .ok (reduced p.2, outcome) :=
      ⟨_, reduce_candidates_ok_iff.mpr ⟨hp.1, hp.2, rfl, rfl⟩⟩
    have hcount : ¬ (reduced p.2).length ≥ 2 ^ 8 := by
      have := hp.2
      unfold MAX_REPLICATION_CANDIDATES_PER_ENTRY at this
      omega
    refine ⟨⟨index + 1, outcome, (reduced p.2).length⟩ :: events, ?_⟩
    unfold merge_entries
    simp only [bind_ok_iff, refuseIf_ok_iff, pure_ok_iff]
    exact ⟨_, hreduce, (), by omega, (), hcount, _, hrest, rfl⟩

/-- Only which candidates stand under which key matters to the loop. -/
theorem merge_entries_congr {l l' : List ReplicationEntry}
    (hkeys : ∀ key, key ∈ l.map ReplicationEntry.key ↔ key ∈ l'.map ReplicationEntry.key)
    (hunder : ∀ key, (candidatesUnder l key).Perm (candidatesUnder l' key)) :
    merge_entries 0 (l.foldl collect SortedMap.empty).entries =
      merge_entries 0 (l'.foldl collect SortedMap.empty).entries := by
  rw [collect_entries, collect_entries, keysOf_congr hkeys]
  generalize keysOf l' = keys
  generalize 0 = index
  induction keys generalizing index with
  | nil => rfl
  | cons key keys ih =>
    rw [List.map_cons, List.map_cons]
    unfold merge_entries
    rw [reduce_candidates_perm (hunder key)]
    simp only [ih]

variable {policy : ReplicationPolicy} {a b : ReplicationDocument} {m : ReplicationMerge}

theorem merge_ok (h : merge_replication_documents a b policy = .ok m) :
    ValidDocument policy a ∧ ValidDocument policy b ∧ a.workspace_id = b.workspace_id ∧ m.document =
        ⟨REPLICATION_SCHEMA_VERSION, a.workspace_id, mergedEntries (a.entries ++ b.entries)⟩ ∧
      ValidDocument policy m.document ∧
      ∀ key, NoEquivocation (candidatesUnder (a.entries ++ b.entries) key) := by
  unfold merge_replication_documents at h
  simp only [bind_ok_iff, refuseIf_ok_iff, pure_ok_iff, not_not] at h
  obtain ⟨_, ha, _, hb, _, hworkspace, ⟨entries, events⟩, hentries, document, hnew, rfl⟩ := h
  obtain ⟨rfl, hvalid⟩ := document_new_ok_iff.mp hnew
  rw [collect_entries] at hentries
  obtain ⟨rfl, hall⟩ := merge_entries_ok hentries
  refine ⟨document_validate_ok_iff.mp ha, document_validate_ok_iff.mp hb, hworkspace, ?_,
    hvalid, fun key => ?_⟩
  · rw [List.map_map]
    rfl
  · by_cases hkey : key ∈ (a.entries ++ b.entries).map ReplicationEntry.key
    · exact (hall _ (List.mem_map.mpr ⟨key, mem_keysOf.mpr hkey, rfl⟩)).1
    · rw [candidatesUnder_of_not_mem hkey]
      exact fun x hx => absurd hx List.not_mem_nil

theorem merge_succeeds (ha : ValidDocument policy a) (hb : ValidDocument policy b)
    (hworkspace : a.workspace_id = b.workspace_id)
    (hreducible : ∀ key, Reducible (candidatesUnder (a.entries ++ b.entries) key))
    (hvalid : ValidDocument policy
      ⟨REPLICATION_SCHEMA_VERSION, a.workspace_id, mergedEntries (a.entries ++ b.entries)⟩) :
    ∃ events, merge_replication_documents a b policy =
      .ok ⟨⟨REPLICATION_SCHEMA_VERSION, a.workspace_id, mergedEntries (a.entries ++ b.entries)⟩,
        events⟩ := by
  have hlength : (keysOf (a.entries ++ b.entries)).length ≤ MAX_REPLICATION_ENTRIES := by
    have := hvalid.few
    unfold mergedEntries at this
    rwa [List.length_map] at this
  have hcollected : ∀ p ∈ ((a.entries ++ b.entries).foldl collect SortedMap.empty).entries,
      Reducible p.2 := by
    rw [collect_entries]
    intro p hp
    obtain ⟨key, _, rfl⟩ := List.mem_map.mp hp
    exact hreducible key
  have hindex : 0 + ((a.entries ++ b.entries).foldl collect SortedMap.empty).entries.length <
      2 ^ 32 := by
    rw [collect_entries, List.length_map]
    unfold MAX_REPLICATION_ENTRIES at hlength
    omega
  obtain ⟨events, hevents⟩ := merge_entries_succeeds hindex hcollected
  have hentries : (((a.entries ++ b.entries).foldl collect SortedMap.empty).entries.map
      fun p => (⟨p.1, reduced p.2⟩ : ReplicationEntry)) =
      mergedEntries (a.entries ++ b.entries) := by
    rw [collect_entries, List.map_map]
    rfl
  rw [hentries] at hevents
  refine ⟨events, ?_⟩
  unfold merge_replication_documents
  simp only [bind_ok_iff, refuseIf_ok_iff, pure_ok_iff, not_not]
  exact ⟨(), document_validate_ok_iff.mpr ha, (), document_validate_ok_iff.mpr hb, (), hworkspace,
    _, hevents, _, document_new_ok_iff.mpr ⟨rfl, hvalid⟩, rfl⟩

end multiplex_domain
