-- The laws of the merge: it is a join of what the documents hold, and it
-- neither loses nor invents a candidate.
import Multiplex.Domain.Merge

open Checks SortedList Maxima

namespace multiplex_domain

variable {policy : ReplicationPolicy} {a b c : ReplicationDocument} {m : ReplicationMerge}

/-! ## Rearranged documents -/

/-- The same entry with its candidates in another order. -/
def SameEntry (e f : ReplicationEntry) : Prop := e.key = f.key ∧ e.candidates.Perm f.candidates

/-- The same entries in another order, each with its candidates in another order. -/
def SameEntries (l l' : List ReplicationEntry) : Prop :=
  ∃ middle, l.Perm middle ∧ List.Forall₂ SameEntry middle l'

/-- The same document with its entries and their candidates in another order. -/
structure Rearranged (a b : ReplicationDocument) : Prop where
  schema : a.schema_version = b.schema_version
  workspace : a.workspace_id = b.workspace_id
  entries : SameEntries a.entries b.entries

variable {l : List ReplicationEntry} {e : ReplicationEntry} {cs : List ReplicatedVersion}

variable {l' : List ReplicationEntry} {f : ReplicationEntry} {x version : ReplicatedVersion}

theorem keys_of_forall₂ (h : List.Forall₂ SameEntry l l') :
    l.map ReplicationEntry.key = l'.map ReplicationEntry.key := by
  induction h with
  | nil => rfl
  | cons hef _ ih => rw [List.map_cons, List.map_cons, hef.1, ih]

theorem SameEntries.keys (h : SameEntries l l') :
    (l.map ReplicationEntry.key).Perm (l'.map ReplicationEntry.key) := by
  obtain ⟨middle, hperm, hsame⟩ := h
  rw [← keys_of_forall₂ hsame]
  exact hperm.map _

theorem candidatesUnder_of_forall₂ (h : List.Forall₂ SameEntry l l') (key : ReplicationRecordKey) :
    (candidatesUnder l key).Perm (candidatesUnder l' key) := by
  induction h with
  | nil => exact List.Perm.refl _
  | @cons e f l l' hef _ ih =>
    have hsplit : ∀ (e : ReplicationEntry) (l : List ReplicationEntry),
        candidatesUnder (e :: l) key = candidatesUnder [e] key ++ candidatesUnder l key :=
      fun e l => candidatesUnder_append [e] l key
    rw [hsplit e, hsplit f]
    refine List.Perm.append ?_ ih
    unfold candidatesUnder
    by_cases hkey : e.key = key
    · simpa [hkey, hef.1 ▸ hkey] using hef.2
    · simp [hkey, hef.1 ▸ hkey]

theorem SameEntries.under (h : SameEntries l l') (key : ReplicationRecordKey) :
    (candidatesUnder l key).Perm (candidatesUnder l' key) := by
  obtain ⟨middle, hperm, hsame⟩ := h
  refine List.Perm.trans ?_ (candidatesUnder_of_forall₂ hsame key)
  exact (hperm.filter _).flatMap_right _

theorem SameEntries.bytes (h : SameEntries l l') : entriesBytes l = entriesBytes l' := by
  obtain ⟨middle, hperm, hsame⟩ := h
  unfold entriesBytes
  rw [(hperm.map _).sum_eq]
  clear hperm
  induction hsame with
  | nil => rfl
  | cons hef _ ih =>
    rw [List.map_cons, List.map_cons, List.sum_cons, List.sum_cons, ih]
    unfold payloadBytes
    rw [(hef.2.map _).sum_eq]

theorem exists_same_of_forall₂ (h : List.Forall₂ SameEntry l l') (hf : f ∈ l') :
    ∃ e ∈ l, SameEntry e f := by
  induction h with
  | nil => exact absurd hf List.not_mem_nil
  | cons hef _ ih =>
    rcases List.mem_cons.mp hf with rfl | hf
    · exact ⟨_, List.mem_cons_self, hef⟩
    · obtain ⟨e, he, hef⟩ := ih hf
      exact ⟨e, List.mem_cons_of_mem _ he, hef⟩

theorem ValidEntry.of_same (h : ValidEntry policy e) (hef : SameEntry e f) :
    ValidEntry policy f where
  key := hef.1 ▸ h.key
  nonempty := fun hnil => h.nonempty (hnil ▸ hef.2).eq_nil
  few := hef.2.length_eq ▸ h.few
  versions := fun c hc => h.versions c (hef.2.mem_iff.mpr hc)
  consistent := fun x hx y hy => h.consistent x (hef.2.mem_iff.mpr hx) y (hef.2.mem_iff.mpr hy)

theorem ValidDocument.of_rearranged (h : ValidDocument policy a) (hab : Rearranged a b) :
    ValidDocument policy b where
  replicas := h.replicas
  schema := hab.schema ▸ h.schema
  workspace := hab.workspace ▸ h.workspace
  few := by
    have hlength := hab.entries.keys.length_eq
    rw [List.length_map, List.length_map] at hlength
    exact hlength ▸ h.few
  entries := by
    intro f hf
    obtain ⟨middle, hperm, hsame⟩ := hab.entries
    obtain ⟨e, he, hef⟩ := exists_same_of_forall₂ hsame hf
    exact (h.entries e (hperm.mem_iff.mpr he)).of_same hef
  keys := hab.entries.keys.nodup_iff.mp h.keys
  payload := hab.entries.bytes ▸ h.payload

/-! ## Order does not matter -/

theorem merge_congr {a' b' : ReplicationDocument} (ha : ValidDocument policy a)
    (hb : ValidDocument policy b) (ha' : ValidDocument policy a') (hb' : ValidDocument policy b')
    (haa : a.workspace_id = a'.workspace_id) (hbb : b.workspace_id = b'.workspace_id)
    (hkeys : ∀ key, key ∈ (a.entries ++ b.entries).map ReplicationEntry.key ↔
      key ∈ (a'.entries ++ b'.entries).map ReplicationEntry.key)
    (hunder : ∀ key, (candidatesUnder (a.entries ++ b.entries) key).Perm
      (candidatesUnder (a'.entries ++ b'.entries) key)) :
    merge_replication_documents a b policy = merge_replication_documents a' b' policy := by
  unfold merge_replication_documents
  simp only [document_validate_ok_iff.mpr ha, document_validate_ok_iff.mpr hb,
    document_validate_ok_iff.mpr ha', document_validate_ok_iff.mpr hb',
    merge_entries_congr hkeys hunder, haa, hbb]

theorem merge_comm (ha : ValidDocument policy a) (hb : ValidDocument policy b) :
    merge_replication_documents a b policy = merge_replication_documents b a policy := by
  by_cases hworkspace : a.workspace_id = b.workspace_id
  · refine merge_congr ha hb hb ha hworkspace hworkspace.symm (fun key => ?_) fun key => ?_
    · rw [List.map_append, List.map_append, List.mem_append, List.mem_append, or_comm]
    · rw [candidatesUnder_append, candidatesUnder_append]
      exact List.perm_append_comm
  · have hmismatch : ∀ {x y : ReplicationDocument}, ValidDocument policy x →
        ValidDocument policy y → x.workspace_id ≠ y.workspace_id →
        merge_replication_documents x y policy = .error .WorkspaceMismatch := by
      intro x y hx hy hne
      unfold merge_replication_documents
      rw [document_validate_ok_iff.mpr hx, document_validate_ok_iff.mpr hy]
      unfold refuseIf
      rw [if_pos hne]
      rfl
    rw [hmismatch ha hb hworkspace, hmismatch hb ha (Ne.symm hworkspace)]

theorem merge_rearranged {a' b' : ReplicationDocument} (ha : ValidDocument policy a)
    (hb : ValidDocument policy b) (haa : Rearranged a a') (hbb : Rearranged b b') :
    merge_replication_documents a' b' policy = merge_replication_documents a b policy := by
  symm
  refine merge_congr ha hb (ha.of_rearranged haa) (hb.of_rearranged hbb) haa.workspace
    hbb.workspace (fun key => ?_) fun key => ?_
  · rw [List.map_append, List.map_append, List.mem_append, List.mem_append,
      haa.entries.keys.mem_iff, hbb.entries.keys.mem_iff]
  · rw [candidatesUnder_append, candidatesUnder_append]
    exact (haa.entries.under key).append (hbb.entries.under key)

/-! ## Grouping does not matter -/

theorem mergedEntries_keys (l : List ReplicationEntry) :
    (mergedEntries l).map ReplicationEntry.key = keysOf l := by
  unfold mergedEntries
  rw [List.map_map]
  exact List.map_id _

theorem candidatesUnder_mergedEntries (l : List ReplicationEntry) (key : ReplicationRecordKey) :
    candidatesUnder (mergedEntries l) key = reduced (candidatesUnder l key) := by
  by_cases hkey : key ∈ l.map ReplicationEntry.key
  · have hmem : (⟨key, reduced (candidatesUnder l key)⟩ : ReplicationEntry) ∈ mergedEntries l :=
      List.mem_map.mpr ⟨key, mem_keysOf.mpr hkey, rfl⟩
    refine candidatesUnder_of_mem ?_ hmem
    rw [mergedEntries_keys]
    exact nodup_of_strict (strict_keysOf l)
  · rw [candidatesUnder_of_not_mem hkey, candidatesUnder_of_not_mem]
    · rfl
    · rwa [mergedEntries_keys, mem_keysOf]

theorem mergedEntries_congr
    (hkeys : ∀ key, key ∈ l.map ReplicationEntry.key ↔ key ∈ l'.map ReplicationEntry.key)
    (hunder : ∀ key, reduced (candidatesUnder l key) = reduced (candidatesUnder l' key)) :
    mergedEntries l = mergedEntries l' := by
  unfold mergedEntries
  rw [keysOf_congr hkeys]
  exact List.map_congr_left fun key _ => by rw [hunder key]

theorem mergedEntries_append_merged (l l' : List ReplicationEntry) :
    mergedEntries (mergedEntries l ++ l') = mergedEntries (l ++ l') := by
  apply mergedEntries_congr
  · intro key
    rw [List.map_append, List.map_append, List.mem_append, List.mem_append, mergedEntries_keys,
      mem_keysOf]
  · intro key
    rw [candidatesUnder_append, candidatesUnder_append, candidatesUnder_mergedEntries,
      reduced_append_reduced]

theorem mergedEntries_append_comm (l l' : List ReplicationEntry) :
    mergedEntries (l ++ l') = mergedEntries (l' ++ l) := by
  apply mergedEntries_congr
  · intro key
    rw [List.map_append, List.map_append, List.mem_append, List.mem_append, or_comm]
  · intro key
    rw [candidatesUnder_append, candidatesUnder_append]
    exact reduced_congr_mem fun c => by rw [List.mem_append, List.mem_append, or_comm]

theorem merge_assoc {ab bc left right : ReplicationMerge}
    (hab : merge_replication_documents a b policy = .ok ab)
    (hleft : merge_replication_documents ab.document c policy = .ok left)
    (hbc : merge_replication_documents b c policy = .ok bc)
    (hright : merge_replication_documents a bc.document policy = .ok right) :
    left.document = right.document := by
  obtain ⟨_, _, _, hab, _⟩ := merge_ok hab
  obtain ⟨_, _, _, hleft, _⟩ := merge_ok hleft
  obtain ⟨_, _, _, hbc, _⟩ := merge_ok hbc
  obtain ⟨_, _, _, hright, _⟩ := merge_ok hright
  rw [hleft, hright, hab, hbc]
  have hgroup : mergedEntries (mergedEntries (a.entries ++ b.entries) ++ c.entries) =
      mergedEntries (a.entries ++ mergedEntries (b.entries ++ c.entries)) :=
    calc mergedEntries (mergedEntries (a.entries ++ b.entries) ++ c.entries)
      _ = mergedEntries (a.entries ++ (b.entries ++ c.entries)) := by
        rw [mergedEntries_append_merged, List.append_assoc]
      _ = mergedEntries (mergedEntries (b.entries ++ c.entries) ++ a.entries) := by
        rw [mergedEntries_append_comm, mergedEntries_append_merged]
      _ = mergedEntries (a.entries ++ mergedEntries (b.entries ++ c.entries)) :=
        mergedEntries_append_comm _ _
  rw [hgroup]

/-! ## The canonical form -/

/-- The candidates none of the others dominates, each once and in order. -/
def canonicalCandidates (candidates : List ReplicatedVersion) : List ReplicatedVersion :=
  ((candidates.filter fun x =>
    candidates.all fun y => decide (x.vector.relation y.vector ≠ .Before)).dedup).insertionSort
      (· ≤ ·)

/-- The document with its entries in the order of their keys and each entry's
candidates canonical. -/
def canonicalForm (document : ReplicationDocument) : ReplicationDocument :=
  { document with
    entries := (document.entries.map fun e =>
      { e with candidates := canonicalCandidates e.candidates }).insertionSort
        fun e f => e.key ≤ f.key }

/-- Keys in order, candidates in order, and none of them dominated. -/
structure Canonical (document : ReplicationDocument) : Prop where
  keys : (document.entries.map ReplicationEntry.key).Pairwise (· < ·)
  candidates : ∀ e ∈ document.entries, e.candidates.Pairwise (· < ·)
  undominated : ∀ e ∈ document.entries, ∀ x ∈ e.candidates, ∀ y ∈ e.candidates,
    x.vector.relation y.vector ≠ .Before

theorem mem_canonicalCandidates :
    x ∈ canonicalCandidates cs ↔ x ∈ cs ∧ ∀ y ∈ cs, x.vector.relation y.vector ≠ .Before := by
  unfold canonicalCandidates
  rw [List.mem_insertionSort, List.mem_dedup, List.mem_filter]
  simp

theorem strict_canonicalCandidates (cs : List ReplicatedVersion) :
    (canonicalCandidates cs).Pairwise (· < ·) := by
  unfold canonicalCandidates
  generalize cs.filter _ = kept
  have hsorted := List.pairwise_insertionSort (α := ReplicatedVersion) (· ≤ ·) kept.dedup
  have hnodup : (kept.dedup.insertionSort (· ≤ ·)).Nodup :=
    (List.perm_insertionSort _ _).nodup_iff.mpr (List.nodup_dedup kept)
  exact (hsorted.and hnodup).imp fun h => lt_of_le_of_ne h.1 h.2

theorem reduced_eq_canonicalCandidates (cs : List ReplicatedVersion) :
    reduced cs = canonicalCandidates cs := by
  apply eq_of_mem_iff (strict_reduced cs) (strict_canonicalCandidates cs)
  intro x
  rw [mem_reduced, maximalFor_iff, mem_canonicalCandidates]
  simp [ReplicationVersionVector.relation_before_iff, counters]

theorem mem_canonicalForm {document : ReplicationDocument} : f ∈ (canonicalForm document).entries ↔
      ∃ e ∈ document.entries, f = ⟨e.key, canonicalCandidates e.candidates⟩ := by
  unfold canonicalForm
  rw [List.mem_insertionSort, List.mem_map]
  exact exists_congr fun e => and_congr_right fun _ => eq_comm

theorem canonicalForm_keys_perm (document : ReplicationDocument) :
    ((canonicalForm document).entries.map ReplicationEntry.key).Perm
      (document.entries.map ReplicationEntry.key) := by
  refine ((List.perm_insertionSort _ _).map _).trans ?_
  rw [List.map_map]
  exact List.Perm.refl _

theorem canonicalForm_canonical (h : ValidDocument policy a) : Canonical (canonicalForm a) where
  keys := by
    have hnodup := (canonicalForm_keys_perm a).nodup_iff.mpr h.keys
    have hsorted : ((canonicalForm a).entries.map ReplicationEntry.key).Pairwise (· ≤ ·) :=
      List.pairwise_map.mpr (List.pairwise_insertionSort _ _)
    exact (hsorted.and hnodup).imp fun h => lt_of_le_of_ne h.1 h.2
  candidates := by
    intro f hf
    obtain ⟨e, _, rfl⟩ := mem_canonicalForm.mp hf
    exact strict_canonicalCandidates _
  undominated := by
    intro f hf x hx y hy
    obtain ⟨e, _, rfl⟩ := mem_canonicalForm.mp hf
    exact (mem_canonicalCandidates.mp hx).2 y (mem_canonicalCandidates.mp hy).1

theorem canonicalForm_of_canonical (h : Canonical a) : canonicalForm a = a := by
  have hcandidates : ∀ e ∈ a.entries, canonicalCandidates e.candidates = e.candidates := by
    intro e he
    apply eq_of_mem_iff (strict_canonicalCandidates _) (h.candidates e he)
    intro x
    rw [mem_canonicalCandidates]
    exact and_iff_left_of_imp fun hx => h.undominated e he x hx
  have hmap : (a.entries.map fun e : ReplicationEntry =>
      ({ e with candidates := canonicalCandidates e.candidates } : ReplicationEntry)) =
      a.entries := by
    nth_rewrite 2 [← List.map_id a.entries]
    apply List.map_congr_left
    intro e he
    rw [hcandidates e he, id]
  have hsorted : a.entries.Pairwise fun e f => e.key ≤ f.key :=
    (List.pairwise_map.mp h.keys).imp fun hlt => hlt.le
  unfold canonicalForm
  rw [hmap, List.Pairwise.insertionSort_eq hsorted]

/-! ## Merging a document with itself -/

theorem payloadBytes_reduced_le (cs : List ReplicatedVersion) :
    payloadBytes (reduced cs) ≤ payloadBytes cs := by
  obtain ⟨middle, hperm, hsub⟩ := reduced_subperm cs
  unfold payloadBytes
  rw [← (hperm.map _).sum_eq]
  exact (hsub.map _).sum_le_sum fun _ _ => Nat.zero_le _

theorem ValidEntry.reduce (h : ValidEntry policy e) :
    ValidEntry policy ⟨e.key, reduced e.candidates⟩ where
  key := h.key
  nonempty := by
    obtain ⟨x, hx⟩ := List.exists_mem_of_ne_nil _ h.nonempty
    rcases kept_or_below hx with hkept | ⟨d, hd, _⟩
    · exact List.ne_nil_of_mem hkept
    · exact List.ne_nil_of_mem hd
  few := le_trans (reduced_subperm e.candidates).length_le h.few
  versions := fun x hx => h.versions x (mem_of_mem_reduced hx)
  consistent := fun x hx y hy =>
    h.consistent x (mem_of_mem_reduced hx) y (mem_of_mem_reduced hy)

section
variable (h : ValidDocument policy a)
include h

theorem canonicalForm_valid : ValidDocument policy (canonicalForm a) where
  replicas := h.replicas
  schema := h.schema
  workspace := h.workspace
  few := by
    have hlength := (canonicalForm_keys_perm a).length_eq
    rw [List.length_map, List.length_map] at hlength
    exact hlength ▸ h.few
  entries := by
    intro f hf
    obtain ⟨e, he, rfl⟩ := mem_canonicalForm.mp hf
    rw [← reduced_eq_canonicalCandidates]
    exact (h.entries e he).reduce
  keys := (canonicalForm_keys_perm a).nodup_iff.mpr h.keys
  payload := by
    refine le_trans ?_ h.payload
    unfold entriesBytes canonicalForm
    rw [((List.perm_insertionSort _ _).map _).sum_eq, List.map_map]
    apply List.sum_le_sum
    intro e _
    rw [Function.comp_apply, ← reduced_eq_canonicalCandidates]
    exact payloadBytes_reduced_le e.candidates

theorem candidatesUnder_self (he : e ∈ a.entries) :
    candidatesUnder (a.entries ++ a.entries) e.key = e.candidates ++ e.candidates := by
  rw [candidatesUnder_append, candidatesUnder_of_mem h.keys he]

theorem mergedEntries_self :
    mergedEntries (a.entries ++ a.entries) = (canonicalForm a).entries := by
  have hkeys := (canonicalForm_canonical h).keys
  have hmerged : ((mergedEntries (a.entries ++ a.entries)).map ReplicationEntry.key).Pairwise
      (· < ·) := by
    rw [mergedEntries_keys]
    exact strict_keysOf _
  have hsame : ∀ e ∈ a.entries, reduced (candidatesUnder (a.entries ++ a.entries) e.key) =
      canonicalCandidates e.candidates := by
    intro e he
    rw [candidatesUnder_self h he, ← reduced_eq_canonicalCandidates]
    exact reduced_congr_mem fun x => by rw [List.mem_append, or_self]
  have hmem : ∀ f, f ∈ mergedEntries (a.entries ++ a.entries) ↔ f ∈ (canonicalForm a).entries := by
    intro f
    rw [mem_canonicalForm]
    unfold mergedEntries
    rw [List.mem_map]
    constructor
    · rintro ⟨key, hkey, rfl⟩
      obtain ⟨e, he, rfl⟩ := List.mem_map.mp (mem_keysOf.mp hkey)
      have he : e ∈ a.entries := by simpa using he
      exact ⟨e, he, by rw [hsame e he]⟩
    · rintro ⟨e, he, rfl⟩
      refine ⟨e.key, mem_keysOf.mpr (List.mem_map_of_mem (List.mem_append_left _ he)), ?_⟩
      rw [hsame e he]
  have hperm : (mergedEntries (a.entries ++ a.entries)).Perm (canonicalForm a).entries :=
    (List.perm_ext_iff_of_nodup (nodup_of_strict hmerged).of_map
      (nodup_of_strict hkeys).of_map).mpr hmem
  exact hperm.eq_of_pairwise (fun _ _ _ _ hlt hgt => absurd hgt hlt.not_gt)
    (List.pairwise_map.mp hmerged) (List.pairwise_map.mp hkeys)

theorem merge_self :
    ∃ events, merge_replication_documents a a policy = .ok ⟨canonicalForm a, events⟩ := by
  have hdocument : (⟨REPLICATION_SCHEMA_VERSION, a.workspace_id,
      mergedEntries (a.entries ++ a.entries)⟩ : ReplicationDocument) = canonicalForm a := by
    rw [mergedEntries_self h]
    exact ReplicationDocument.ext h.schema.symm rfl rfl
  have hreducible : ∀ key, Reducible (candidatesUnder (a.entries ++ a.entries) key) := by
    intro key
    by_cases hkey : key ∈ a.entries.map ReplicationEntry.key
    · obtain ⟨e, he, rfl⟩ := List.mem_map.mp hkey
      have hmem : ∀ x, x ∈ e.candidates ++ e.candidates ↔ x ∈ e.candidates := fun x => by
        rw [List.mem_append, or_self]
      rw [candidatesUnder_self h he]
      refine ⟨fun x hx y hy => ?_, ?_⟩
      · exact (h.entries e he).consistent x ((hmem x).mp hx) y ((hmem y).mp hy)
      · rw [reduced_congr_mem hmem]
        exact (h.entries e he).reduce.few
    · rw [candidatesUnder_append, candidatesUnder_of_not_mem hkey]
      exact ⟨fun x hx => absurd hx List.not_mem_nil, Nat.zero_le _⟩
  obtain ⟨events, hevents⟩ :=
    merge_succeeds h h rfl hreducible (hdocument ▸ canonicalForm_valid h)
  exact ⟨events, hdocument ▸ hevents⟩

end

/-- The merge is a join: it does not depend on which side a document is on, on
how three documents are grouped, or on any order inside them, and merging a
document with itself only brings it into its canonical form. -/
theorem merge_is_a_join (policy : ReplicationPolicy) :
    (∀ a b, a.validate policy = .ok () → b.validate policy = .ok () →
      merge_replication_documents a b policy = merge_replication_documents b a policy) ∧
    (∀ a b c ab bc left right, merge_replication_documents a b policy = .ok ab →
      merge_replication_documents ab.document c policy = .ok left →
      merge_replication_documents b c policy = .ok bc →
      merge_replication_documents a bc.document policy = .ok right →
      left.document = right.document) ∧
    (∀ a, a.validate policy = .ok () → Canonical (canonicalForm a) ∧
      ∃ events, merge_replication_documents a a policy = .ok ⟨canonicalForm a, events⟩) ∧
    (∀ a, a.validate policy = .ok () → Canonical a →
      ∃ events, merge_replication_documents a a policy = .ok ⟨a, events⟩) ∧
    (∀ a b a' b', a.validate policy = .ok () → b.validate policy = .ok () →
      Rearranged a a' → Rearranged b b' →
      merge_replication_documents a' b' policy = merge_replication_documents a b policy) := by
  refine ⟨?_, ?_, ?_, ?_, ?_⟩
  · intro a b ha hb
    exact merge_comm (document_validate_ok_iff.mp ha) (document_validate_ok_iff.mp hb)
  · intro a b c ab bc left right hab hleft hbc hright
    exact merge_assoc hab hleft hbc hright
  · intro a ha
    have hvalid := document_validate_ok_iff.mp ha
    exact ⟨canonicalForm_canonical hvalid, merge_self hvalid⟩
  · intro a ha hcanonical
    have hself := merge_self (document_validate_ok_iff.mp ha)
    rwa [canonicalForm_of_canonical hcanonical] at hself
  · intro a b a' b' ha hb haa hbb
    exact merge_rearranged (document_validate_ok_iff.mp ha) (document_validate_ok_iff.mp hb) haa hbb

/-- Two active replicas and one that was revoked after its second write. -/
def samplePolicy : ReplicationPolicy :=
  ⟨((SortedMap.empty.insert "alpha" .Active).insert "beta" .Active).insert "gamma" (.Revoked 2)⟩

def sampleVersion (author : ReplicationReplicaId) (counters : List (ReplicationReplicaId × Nat))
    (payload : UInt8) : ReplicatedVersion :=
  ⟨author, ⟨counters.foldl (fun m e => m.insert e.1 e.2) SortedMap.empty⟩, .Put [payload]⟩

/-- A document with one record, held in the given versions. -/
def sampleDocument (candidates : List ReplicatedVersion) : ReplicationDocument :=
  ⟨1, "workspace", [⟨⟨"notes", "n-1"⟩, candidates⟩]⟩

theorem merge_is_a_join_on_concurrent_writes :
    let left := sampleDocument [sampleVersion "alpha" [("alpha", 2), ("gamma", 1)] 7,
      sampleVersion "alpha" [("alpha", 1)] 6]
    let right := sampleDocument [sampleVersion "beta" [("beta", 1)] 8]
    left.validate samplePolicy = .ok () ∧ right.validate samplePolicy = .ok () ∧
      merge_replication_documents left right samplePolicy =
        merge_replication_documents right left samplePolicy ∧
      ∃ events, merge_replication_documents left left samplePolicy =
        .ok ⟨canonicalForm left, events⟩ := by
  intro left right
  have hleft : left.validate samplePolicy = .ok () := by decide +kernel
  have hright : right.validate samplePolicy = .ok () := by decide +kernel
  have hjoin := merge_is_a_join samplePolicy
  exact ⟨hleft, hright, hjoin.1 left right hleft hright, (hjoin.2.2.1 left hleft).2⟩

/-! ## Nothing is lost and nothing is made up -/

theorem mem_mergedEntries : e ∈ mergedEntries l ↔
      e.key ∈ l.map ReplicationEntry.key ∧ e.candidates = reduced (candidatesUnder l e.key) := by
  unfold mergedEntries
  rw [List.mem_map]
  constructor
  · rintro ⟨key, hkey, rfl⟩
    exact ⟨mem_keysOf.mp hkey, rfl⟩
  · rintro ⟨hkey, heq⟩
    exact ⟨e.key, mem_keysOf.mpr hkey, ReplicationEntry.ext rfl heq.symm⟩

theorem kept_or_before (he : e ∈ l) (hx : x ∈ e.candidates) : ∃ f ∈ mergedEntries l, f.key = e.key ∧
      (x ∈ f.candidates ∨ ∃ y ∈ f.candidates, x.vector.relation y.vector = .Before) := by
  have hkey : e.key ∈ l.map ReplicationEntry.key := List.mem_map_of_mem he
  refine ⟨⟨e.key, reduced (candidatesUnder l e.key)⟩, mem_mergedEntries.mpr ⟨hkey, rfl⟩, rfl, ?_⟩
  rcases kept_or_below (mem_candidatesUnder.mpr ⟨e, he, rfl, hx⟩) with hkept | ⟨y, hy, hlt⟩
  · exact .inl hkept
  · exact .inr ⟨y, hy, ReplicationVersionVector.relation_before_iff.mpr hlt⟩

theorem kept_concurrent (hvectors : ∀ x ∈ cs, x.vector.validate = .ok ())
    (hconsistent : NoEquivocation cs) {y : ReplicatedVersion} (hx : x ∈ reduced cs)
    (hy : y ∈ reduced cs) (hne : x ≠ y) : x.vector.relation y.vector = .Concurrent := by
  obtain ⟨hxcs, hxtop⟩ := maximalFor_iff.mp (mem_reduced.mp hx)
  obtain ⟨hycs, hytop⟩ := maximalFor_iff.mp (mem_reduced.mp hy)
  refine ReplicationVersionVector.relation_concurrent (fun heq => hne ?_) (hxtop y hycs)
    (hytop x hxcs)
  -- equal counters are equal vectors, which only one candidate may have
  have hvector := ReplicationVersionVector.eq_of_counter_eq (hvectors x hxcs) (hvectors y hycs) heq
  exact hconsistent x hxcs y hycs hvector

theorem reduced_of_above (hmem : version ∈ cs)
    (habove : ∀ x ∈ cs, x = version ∨ counters x < counters version) : reduced cs = [version] := by
  apply eq_of_mem_iff (strict_reduced cs) (List.pairwise_singleton _ _)
  intro x
  rw [mem_reduced, maximalFor_iff, List.mem_singleton]
  constructor
  · rintro ⟨hx, htop⟩
    exact (habove x hx).resolve_right (htop version hmem)
  · rintro rfl
    refine ⟨hmem, fun y hy hlt => ?_⟩
    rcases habove y hy with rfl | hgt
    · exact lt_irrefl _ hlt
    · exact lt_asymm hlt hgt

/-- What the merge keeps under a key on which one side has only a version that
follows everything the other side holds. -/
theorem merge_next_alone {key : ReplicationRecordKey}
    (hleft : candidatesUnder a.entries key = [version])
    (hright : ∀ x ∈ candidatesUnder b.entries key, counters x < counters version)
    (h : merge_replication_documents a b policy = .ok m) :
    candidatesUnder m.document.entries key = [version] := by
  obtain ⟨_, _, _, hdocument, _⟩ := merge_ok h
  rw [hdocument, candidatesUnder_mergedEntries, candidatesUnder_append, hleft]
  apply reduced_of_above List.mem_cons_self
  intro x hx
  rcases List.mem_cons.mp hx with rfl | hx
  · exact .inl rfl
  · exact .inr (hright x hx)

/-- A merge keeps candidates of its inputs, loses only what a kept one is
newer than, leaves only what is concurrent and returns a valid document. The
version an author writes next is newer than all it has seen, and stands alone
after a merge with them. -/
theorem merge_loses_and_invents_nothing (policy : ReplicationPolicy) :
    (∀ a b m, a.validate policy = .ok () → b.validate policy = .ok () →
      merge_replication_documents a b policy = .ok m →
      (∀ e ∈ m.document.entries, ∀ x ∈ e.candidates,
        ∃ f, (f ∈ a.entries ∨ f ∈ b.entries) ∧ f.key = e.key ∧ x ∈ f.candidates) ∧
      (∀ e, (e ∈ a.entries ∨ e ∈ b.entries) → ∀ x ∈ e.candidates,
        ∃ f ∈ m.document.entries, f.key = e.key ∧
          (x ∈ f.candidates ∨ ∃ y ∈ f.candidates, x.vector.relation y.vector = .Before)) ∧
      (∀ e ∈ m.document.entries, e.candidates.Nodup ∧ ∀ x ∈ e.candidates, ∀ y ∈ e.candidates,
        x ≠ y → x.vector.relation y.vector = .Concurrent) ∧ m.document.validate policy = .ok ()) ∧
    (∀ author observed operation version,
      policy.next_version author observed operation = .ok version →
      (∀ v ∈ observed, version.vector.relation v = .After) ∧
      (∃ join, IsLUB {c | ∃ v ∈ observed, c = v.counter} join ∧
        version.vector.counter author = join author + 1 ∧
        ∀ r, r ≠ author → version.vector.counter r = join r) ∧
      ∀ key a b m, candidatesUnder a.entries key = [version] →
        (∀ x ∈ candidatesUnder b.entries key, x.vector ∈ observed) →
        (merge_replication_documents a b policy = .ok m ∨
          merge_replication_documents b a policy = .ok m) →
        candidatesUnder m.document.entries key = [version]) := by
  constructor
  · intro a b m _ _ h
    obtain ⟨ha, hb, _, hdocument, hvalid, hconsistent⟩ := merge_ok h
    have hentries : m.document.entries = mergedEntries (a.entries ++ b.entries) := by rw [hdocument]
    refine ⟨?_, ?_, ?_, document_validate_ok_iff.mpr hvalid⟩
    · intro e he x hx
      rw [hentries] at he
      rw [(mem_mergedEntries.mp he).2] at hx
      obtain ⟨f, hf, hkey, hxf⟩ := mem_candidatesUnder.mp (mem_of_mem_reduced hx)
      exact ⟨f, List.mem_append.mp hf, hkey, hxf⟩
    · intro e he x hx
      rw [hentries]
      exact kept_or_before (List.mem_append.mpr he) hx
    · intro e he
      rw [hentries] at he
      obtain ⟨_, hcandidates⟩ := mem_mergedEntries.mp he
      rw [hcandidates]
      refine ⟨nodup_of_strict (strict_reduced _), fun x hx y hy hne => ?_⟩
      refine kept_concurrent (fun z hz => ?_) (hconsistent e.key) hx hy hne
      obtain ⟨f, hf, _, hzf⟩ := mem_candidatesUnder.mp hz
      apply vector_validate_of_version
      rcases List.mem_append.mp hf with hf | hf
      · exact (ha.entries f hf).versions z hzf
      · exact (hb.entries f hf).versions z hzf
  · intro author observed operation version h
    obtain ⟨_, _, _, join, hjoin, hcounter⟩ := next_version_ok h
    refine ⟨fun v hv => ?_, ⟨join, hjoin, ?_, fun r hr => ?_⟩, ?_⟩
    · rw [ReplicationVersionVector.relation_after_iff]
      exact observed_lt_next hjoin hcounter hv
    · rw [hcounter, Function.update_self]
    · rw [hcounter, Function.update_of_ne hr]
    · intro key a b m ha hb hmerge
      have hbelow : ∀ x ∈ candidatesUnder b.entries key, counters x < counters version :=
        fun x hx => observed_lt_next hjoin hcounter (hb x hx)
      have hab : merge_replication_documents a b policy = .ok m := by
        rcases hmerge with hab | hba
        · exact hab
        · obtain ⟨hvalidb, hvalida, _⟩ := merge_ok hba
          rw [merge_comm hvalida hvalidb, hba]
      exact merge_next_alone ha hbelow hab

theorem merge_loses_and_invents_nothing_on_next_write :
    let observed := [(sampleVersion "alpha" [("alpha", 1)] 6).vector,
      (sampleVersion "beta" [("beta", 1)] 8).vector]
    let next := sampleVersion "beta" [("alpha", 1), ("beta", 2)] 9
    let held := sampleDocument [sampleVersion "alpha" [("alpha", 1)] 6,
      sampleVersion "beta" [("beta", 1)] 8]
    let merged : ReplicationMerge := ⟨sampleDocument [next], [⟨1, .Advanced, 1⟩]⟩
    samplePolicy.next_version "beta" observed (.Put [9]) = .ok next ∧
      merge_replication_documents (sampleDocument [next]) held samplePolicy = .ok merged ∧
      merged.document.validate samplePolicy = .ok () ∧
      candidatesUnder merged.document.entries ⟨"notes", "n-1"⟩ = [next] := by
  intro observed next held merged
  have hnext : samplePolicy.next_version "beta" observed (.Put [9]) = .ok next := by
    decide +kernel
  have hmerge : merge_replication_documents (sampleDocument [next]) held samplePolicy =
      .ok merged := by decide +kernel
  have hlaws := merge_loses_and_invents_nothing samplePolicy
  refine ⟨hnext, hmerge, ?_, ?_⟩
  · exact (hlaws.1 (sampleDocument [next]) held merged (by decide +kernel) (by decide +kernel)
      hmerge).2.2.2
  · exact (hlaws.2 "beta" observed _ next hnext).2.2 ⟨"notes", "n-1"⟩ (sampleDocument [next]) held
      merged (by decide +kernel) (by decide +kernel) (Or.inl hmerge)

end multiplex_domain
