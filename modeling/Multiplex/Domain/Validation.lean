-- What it means that a document validates, with no order of checks in it: the
-- same for any arrangement of the entries and of their candidates.
import Multiplex.Domain.Vectors

open Checks

namespace multiplex_domain

variable {policy : ReplicationPolicy}

/-! ## Candidates -/

/-- A vector identifies one candidate. -/
def NoEquivocation (candidates : List ReplicatedVersion) : Prop :=
  ∀ x ∈ candidates, ∀ y ∈ candidates, x.vector = y.vector → x = y

variable {candidates : List ReplicatedVersion} {entries : List ReplicationEntry}
  {document : ReplicationDocument}

theorem validate_no_equivocation_ok_iff :
    validate_no_equivocation candidates = .ok () ↔ NoEquivocation candidates := by
  unfold NoEquivocation
  induction candidates with
  | nil => simp [validate_no_equivocation]
  | cons c others ih =>
    unfold validate_no_equivocation
    simp only [bind_ok_iff, forM_ok_iff, refuseIf_ok_iff, ih, List.forall_mem_cons, not_and,
      not_not]
    constructor
    · rintro ⟨_, hc, hothers⟩
      refine ⟨⟨fun _ => trivial, hc⟩, fun x hx => ⟨fun heq => ?_, hothers x hx⟩⟩
      exact (hc x hx heq.symm).symm
    · rintro ⟨⟨_, hc⟩, hothers⟩
      exact ⟨(), hc, fun x hx => (hothers x hx).2⟩

theorem validate_no_equivocation_result (candidates : List ReplicatedVersion) :
    validate_no_equivocation candidates = .ok () ∨
      validate_no_equivocation candidates = .error .ClockEquivocation := by
  have hone : ∀ (c : ReplicatedVersion) (others : List ReplicatedVersion),
      (forM others fun other => refuseIf ReplicationError.ClockEquivocation
        (c.vector = other.vector ∧ c ≠ other)) = .ok () ∨
      (forM others fun other => refuseIf ReplicationError.ClockEquivocation
        (c.vector = other.vector ∧ c ≠ other)) = .error .ClockEquivocation := by
    intro c others
    induction others with
    | nil => exact .inl rfl
    | cons other others ih =>
      rw [List.forM_cons]
      by_cases h : c.vector = other.vector ∧ c ≠ other
      · exact .inr (by rw [refuseIf, if_pos h]; rfl)
      · rw [refuseIf, if_neg h]
        exact ih
  induction candidates with
  | nil => exact .inl rfl
  | cons c others ih =>
    unfold validate_no_equivocation
    rcases hone c others with h | h
    · rw [h]
      exact ih
    · rw [h]
      exact .inr rfl

theorem validate_no_equivocation_congr {cs cs' : List ReplicatedVersion}
    (h : ∀ c, c ∈ cs ↔ c ∈ cs') : validate_no_equivocation cs = validate_no_equivocation cs' := by
  refine eq_of_ok_iff (validate_no_equivocation_result cs) (validate_no_equivocation_result cs') ?_
  rw [validate_no_equivocation_ok_iff, validate_no_equivocation_ok_iff]
  unfold NoEquivocation
  simp only [h]

def payloadBytes (candidates : List ReplicatedVersion) : Nat :=
  (candidates.map fun c => c.operation.payload_len).sum

theorem validate_candidate_ok_iff {total total' : Nat} {c : ReplicatedVersion} :
    validate_candidate policy total c = .ok total' ↔ policy.validate_version c = .ok () ∧
        total + c.operation.payload_len ≤ MAX_REPLICATION_TOTAL_PAYLOAD_BYTES ∧
        total' = total + c.operation.payload_len := by
  have hmax : MAX_REPLICATION_TOTAL_PAYLOAD_BYTES < 2 ^ 64 := by decide
  unfold validate_candidate checked_add
  rw [bind_ok_iff]
  by_cases hfit : total + c.operation.payload_len < 2 ^ 64
  · simp only [if_pos hfit, bind_ok_iff, refuseIf_ok_iff, pure_ok_iff, not_lt]
    constructor
    · rintro ⟨_, hc, _, hle, rfl⟩
      exact ⟨hc, hle, rfl⟩
    · rintro ⟨hc, hle, rfl⟩
      exact ⟨(), hc, (), hle, rfl⟩
  · simp only [if_neg hfit, throw_ok_iff, and_false, exists_false, false_iff, not_and]
    omega

theorem validate_candidates_ok_iff :
    ∀ {total total' : Nat}, total ≤ MAX_REPLICATION_TOTAL_PAYLOAD_BYTES →
      (candidates.foldlM (validate_candidate policy) total = .ok total' ↔
        (∀ c ∈ candidates, policy.validate_version c = .ok ()) ∧
          total + payloadBytes candidates ≤ MAX_REPLICATION_TOTAL_PAYLOAD_BYTES ∧
          total' = total + payloadBytes candidates) := by
  induction candidates with
  | nil =>
    intro total total' htotal
    rw [List.foldlM_nil, pure_ok_iff]
    simp [payloadBytes, htotal, eq_comm]
  | cons c candidates ih =>
    intro total total' _
    have hsum : payloadBytes (c :: candidates) =
        c.operation.payload_len + payloadBytes candidates := by
      simp [payloadBytes]
    rw [List.foldlM_cons, bind_ok_iff, List.forall_mem_cons, hsum, ← Nat.add_assoc]
    constructor
    · rintro ⟨middle, hmiddle, hrest⟩
      obtain ⟨hc, hle, rfl⟩ := validate_candidate_ok_iff.mp hmiddle
      obtain ⟨hcs, htotal, heq⟩ := (ih hle).mp hrest
      exact ⟨⟨hc, hcs⟩, htotal, heq⟩
    · rintro ⟨⟨hc, hcs⟩, htotal, heq⟩
      have hle : total + c.operation.payload_len ≤ MAX_REPLICATION_TOTAL_PAYLOAD_BYTES := by omega
      exact ⟨_, validate_candidate_ok_iff.mpr ⟨hc, hle, rfl⟩, (ih hle).mpr ⟨hcs, htotal, heq⟩⟩

/-! ## Entries and documents -/

structure ValidEntry (policy : ReplicationPolicy) (entry : ReplicationEntry) : Prop where
  key : entry.key.validate = .ok ()
  nonempty : entry.candidates ≠ []
  few : entry.candidates.length ≤ MAX_REPLICATION_CANDIDATES_PER_ENTRY
  versions : ∀ c ∈ entry.candidates, policy.validate_version c = .ok ()
  consistent : NoEquivocation entry.candidates

def entriesBytes (entries : List ReplicationEntry) : Nat :=
  (entries.map fun e => payloadBytes e.candidates).sum

theorem validate_entry_ok_iff {seen seen' : List ReplicationRecordKey × Nat}
    {entry : ReplicationEntry} (hseen : seen.2 ≤ MAX_REPLICATION_TOTAL_PAYLOAD_BYTES) :
    validate_entry policy seen entry = .ok seen' ↔ ValidEntry policy entry ∧ entry.key ∉ seen.1 ∧
        seen.2 + payloadBytes entry.candidates ≤ MAX_REPLICATION_TOTAL_PAYLOAD_BYTES ∧
        seen' = (entry.key :: seen.1, seen.2 + payloadBytes entry.candidates) := by
  unfold validate_entry
  simp only [bind_ok_iff, refuseIf_ok_iff, pure_ok_iff, validate_candidates_ok_iff hseen]
  constructor
  · rintro ⟨_, hkey, _, hnew, _, hnonempty, _, hfew, total, ⟨hcs, hle, rfl⟩, _, heq, rfl⟩
    refine ⟨⟨hkey, ?_, not_lt.mp hfew, hcs, validate_no_equivocation_ok_iff.mp heq⟩, hnew, hle, rfl⟩
    simpa using hnonempty
  · rintro ⟨⟨hkey, hnonempty, hfew, hcs, heq⟩, hnew, hle, rfl⟩
    exact ⟨(), hkey, (), hnew, (), by simpa using hnonempty, (), not_lt.mpr hfew, _,
      ⟨hcs, hle, rfl⟩, (), validate_no_equivocation_ok_iff.mpr heq, rfl⟩

theorem validate_entries_ok_iff :
    ∀ {seen : List ReplicationRecordKey × Nat}, seen.2 ≤ MAX_REPLICATION_TOTAL_PAYLOAD_BYTES →
      ((∃ out, entries.foldlM (validate_entry policy) seen = .ok out) ↔
        (∀ e ∈ entries, ValidEntry policy e) ∧ (entries.map ReplicationEntry.key).Nodup ∧
          (∀ e ∈ entries, e.key ∉ seen.1) ∧
          seen.2 + entriesBytes entries ≤ MAX_REPLICATION_TOTAL_PAYLOAD_BYTES) := by
  induction entries with
  | nil =>
    intro seen hseen
    simp [entriesBytes, hseen]
  | cons e entries ih =>
    intro seen hseen
    have hsum : entriesBytes (e :: entries) =
        payloadBytes e.candidates + entriesBytes entries := by
      simp [entriesBytes]
    simp only [List.foldlM_cons, bind_ok_iff, List.forall_mem_cons, List.map_cons,
      List.nodup_cons, hsum, validate_entry_ok_iff hseen]
    constructor
    · rintro ⟨out, _, ⟨he, hnew, hle, rfl⟩, hrest⟩
      obtain ⟨hes, hnodup, hnotseen, htotal⟩ := (ih hle).mp ⟨out, hrest⟩
      refine ⟨⟨he, hes⟩, ⟨?_, hnodup⟩, ⟨hnew, ?_⟩, by rwa [← Nat.add_assoc]⟩
      · rintro hmem
        obtain ⟨f, hf, hkey⟩ := List.mem_map.mp hmem
        exact hnotseen f hf (hkey ▸ List.mem_cons_self)
      · exact fun f hf hmem => hnotseen f hf (List.mem_cons_of_mem _ hmem)
    · rintro ⟨⟨he, hes⟩, ⟨hfresh, hnodup⟩, ⟨hnew, hnotseen⟩, htotal⟩
      have hle : seen.2 + payloadBytes e.candidates ≤ MAX_REPLICATION_TOTAL_PAYLOAD_BYTES := by
        omega
      have hrest : ∀ f ∈ entries, f.key ∉ e.key :: seen.1 := by
        intro f hf hmem
        rcases List.mem_cons.mp hmem with heq | hmem
        · exact hfresh (heq ▸ List.mem_map_of_mem hf)
        · exact hnotseen f hf hmem
      obtain ⟨out, hout⟩ := (@ih (e.key :: seen.1, _) hle).mpr
        ⟨hes, hnodup, hrest, by rwa [Nat.add_assoc]⟩
      exact ⟨out, _, ⟨he, hnew, hle, rfl⟩, hout⟩

/-- What a document must satisfy to be taken under a policy. -/
structure ValidDocument (policy : ReplicationPolicy) (document : ReplicationDocument) : Prop where
  replicas : policy.validate = .ok ()
  schema : document.schema_version = REPLICATION_SCHEMA_VERSION
  workspace : ReplicationWorkspaceId.validate document.workspace_id = .ok ()
  few : document.entries.length ≤ MAX_REPLICATION_ENTRIES
  entries : ∀ e ∈ document.entries, ValidEntry policy e
  keys : (document.entries.map ReplicationEntry.key).Nodup
  payload : entriesBytes document.entries ≤ MAX_REPLICATION_TOTAL_PAYLOAD_BYTES

theorem document_validate_ok_iff :
    document.validate policy = .ok () ↔ ValidDocument policy document := by
  unfold ReplicationDocument.validate
  have hentries := @validate_entries_ok_iff policy document.entries ([], 0) (Nat.zero_le _)
  simp only [bind_ok_iff, refuseIf_ok_iff, pure_ok_iff, not_not, not_lt]
  constructor
  · rintro ⟨_, hpolicy, _, hschema, _, hworkspace, _, hfew, out, hout, _⟩
    obtain ⟨hes, hnodup, _, hbytes⟩ := hentries.mp ⟨out, hout⟩
    exact ⟨hpolicy, hschema, hworkspace, hfew, hes, hnodup, by simpa using hbytes⟩
  · intro h
    obtain ⟨out, hout⟩ := hentries.mpr
      ⟨h.entries, h.keys, fun _ _ => List.not_mem_nil, by simpa using h.payload⟩
    exact ⟨(), h.replicas, (), h.schema, (), h.workspace, (), h.few, out, hout, trivial⟩

theorem document_new_ok_iff {workspace_id : ReplicationWorkspaceId} :
    ReplicationDocument.new workspace_id entries policy = .ok document ↔
      document = ⟨REPLICATION_SCHEMA_VERSION, workspace_id, entries⟩ ∧
        ValidDocument policy document := by
  unfold ReplicationDocument.new
  simp only [bind_ok_iff, pure_ok_iff]
  constructor
  · rintro ⟨_, hvalid, rfl⟩
    exact ⟨rfl, document_validate_ok_iff.mp hvalid⟩
  · rintro ⟨rfl, hvalid⟩
    exact ⟨(), document_validate_ok_iff.mpr hvalid, rfl⟩

theorem vector_validate_of_version {version : ReplicatedVersion}
    (h : policy.validate_version version = .ok ()) : version.vector.validate = .ok () := by
  unfold ReplicationPolicy.validate_version ReplicationPolicy.validate_vector at h
  simp only [bind_ok_iff] at h
  obtain ⟨_, _, _, _, _, ⟨_, hvector, _⟩, _⟩ := h
  exact hvector

end multiplex_domain
