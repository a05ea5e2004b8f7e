-- What each call does to the list of sessions: what is written is valid, sorted
-- and one revision on, and a session that is moved stands where it was told to.
import Multiplex.Store.Sessions

open Checks FirstMatch
open multiplex_domain.session
open multiplex_store.controller_devices (AtomicWrite)

namespace multiplex_store.session_list

variable {encoding : Encoding}

/-! ## Sorting -/

theorem sort_sessions_perm (sessions : List HostedSession) :
    (sort_sessions sessions).Perm sessions := List.perm_insertionSort _ _

variable {sessions : List HostedSession} {revision expected : Revision} {ids : List HostedSessionId}
  {document : SessionsDocument} {group_id : Option GroupId} {s : HostedSession}
  {id : HostedSessionId} {before : Option HostedSessionId} {updated_at : Nat}

theorem sort_sessions_sorted (h : sessions.Pairwise fun a b => sort_key a ≤ sort_key b) :
    sort_sessions sessions = sessions :=
  h.insertionSort_eq

theorem pairwise_sort_sessions (sessions : List HostedSession) :
    (sort_sessions sessions).Pairwise fun a b => sort_key a ≤ sort_key b := by
  exact List.pairwise_insertionSort _ _

@[simp] theorem sort_sessions_twice (sessions : List HostedSession) :
    sort_sessions (sort_sessions sessions) = sort_sessions sessions :=
  sort_sessions_sorted (pairwise_sort_sessions sessions)

/-! ## Valid documents -/

variable {u : Unit} {sessions' : List HostedSession} {index : Nat} {others : List HostedSessionId}
  {next : SessionsDocument}

theorem validate_sessions_ids {positions : List Slot}
    (h : validate_sessions revision ids positions sessions = .ok u) :
    (sessions.map (·.id)).Nodup ∧ ∀ s ∈ sessions, s.id ∉ ids := by
  induction sessions generalizing ids positions with
  | nil => simp
  | cons session rest ih =>
    unfold validate_sessions at h
    simp only [bind_ok_iff, refuseIf_ok_iff, not_or] at h
    obtain ⟨_, -, _, ⟨hnew, -⟩, _, -, _, -, hrest⟩ := h
    obtain ⟨hnodup, hids⟩ := ih hrest
    rw [List.map_cons, List.nodup_cons, List.forall_mem_cons]
    refine ⟨⟨?_, hnodup⟩, hnew, fun s hs hmem => hids s hs (List.mem_cons_of_mem _ hmem)⟩
    intro hmem
    obtain ⟨s, hs, hsame⟩ := List.mem_map.mp hmem
    exact hids s hs (by rw [hsame]; exact List.mem_cons_self)

theorem ids_nodup (h : validate_document document = .ok u) :
    (document.sessions.map (·.id)).Nodup := (validate_sessions_ids h).1

theorem read_document_ok {file : SessionsDocument}
    (h : read_document encoding file = .ok document) :
    document = { file with sessions := sort_sessions file.sessions } ∧
      validate_document file = .ok () ∧ encoding.document file ≤ MAX_SESSIONS_BYTES := by
  unfold read_document at h
  simp only [bind_ok_iff, refuseIf_ok_iff, pure_ok_iff, not_lt] at h
  obtain ⟨_, hroom, ⟨⟩, hvalid, rfl⟩ := h
  exact ⟨rfl, hvalid, hroom⟩

/-! ## Writing -/

/-- What a write of a sorted document does: it is refused, or the document is valid and stands, and
then only a writer that failed after its rename says otherwise. -/
inductive Written (store : SessionStore) (document : SessionsDocument) (write : AtomicWrite) :
    Stored Unit × SessionStore → Prop where
  | refused (e : StoreError) : Written store document write (.error e, store)
  | stands (result : Stored Unit)
      (valid : validate_document document = .ok ())
      (told : result = .ok () ∧ write = .written ∨
        (∃ e, result = .error e) ∧ write = .failed_after_rename) :
      Written store document write (result, { store with document })

theorem write_document_written (encoding : Encoding) (store : SessionStore) (write : AtomicWrite)
    (hsorted : sort_sessions document.sessions = document.sessions) :
    Written store document write (write_document_locked encoding store document write) := by
  unfold write_document_locked
  split
  · exact Written.refused _
  rename_i hvalid
  split
  · exact Written.refused _
  rename_i hroom
  cases write with
  | failed => exact Written.refused _
  | failed_after_rename => exact Written.stands _ hvalid (.inr ⟨⟨_, rfl⟩, rfl⟩)
  | written =>
    -- The document is read back as it was written.
    have hread : read_document encoding document = .ok document := by
      unfold read_document
      simp only [bind_ok_iff, refuseIf_ok_iff, pure_ok_iff]
      exact ⟨(), hroom, (), hvalid, by rw [hsorted]⟩
    rw [hread]
    dsimp only
    rw [if_neg (not_not.mpr rfl)]
    exact Written.stands _ hvalid (.inl ⟨rfl, rfl⟩)

/-! ## The order of a group -/

def destination (sessions : List HostedSession) (group_id : Option GroupId) : List HostedSession :=
  (sessions.filter (·.group_id = group_id)).insertionSort fun a b => position_key a ≤ position_key b

theorem mem_destination :
    s ∈ destination sessions group_id ↔ s ∈ sessions ∧ s.group_id = group_id := by
  unfold destination
  rw [List.mem_insertionSort, List.mem_filter, decide_eq_true_eq]

section
variable (sessions : List HostedSession) (group_id : Option GroupId)

theorem destination_perm :
    (destination sessions group_id).Perm (sessions.filter (·.group_id = group_id)) :=
  List.perm_insertionSort _ _

theorem pairwise_destination :
    (destination sessions group_id).Pairwise fun a b => position_key a ≤ position_key b := by
  exact List.pairwise_insertionSort _ _

end

theorem mem_destination_ids :
    id ∈ destination_ids sessions group_id ↔ ∃ s ∈ sessions, s.group_id = group_id ∧ s.id = id := by
  change id ∈ (destination sessions group_id).map (·.id) ↔ _
  simp [mem_destination, and_assoc]

section
variable (h : (sessions.map (·.id)).Nodup)
include h

theorem nodup_destination_ids : (destination_ids sessions group_id).Nodup := by
  have hperm := (destination_perm sessions group_id).map (·.id)
  exact hperm.nodup_iff.mpr (h.sublist (List.filter_sublist.map _))

/-- Sessions with the same key are one session, where the ids tell them apart. -/
theorem eq_of_position_key {t : HostedSession} (hs : s ∈ sessions) (ht : t ∈ sessions)
    (hle : position_key s ≤ position_key t) (hge : position_key t ≤ position_key s) : s = t := by
  have hkey := le_antisymm hle hge
  have hid : s.id = t.id := congrArg (fun k => (ofLex k).2) hkey
  exact List.inj_on_of_nodup_map h hs ht hid

theorem destination_ids_perm (hperm : sessions'.Perm sessions) :
    destination_ids sessions' group_id = destination_ids sessions group_id := by
  change (destination sessions' group_id).map (·.id) = (destination sessions group_id).map (·.id)
  congr 1
  refine List.Perm.eq_of_pairwise (fun s t hs ht => ?_) (pairwise_destination _ _)
    (pairwise_destination _ _) ?_
  · exact eq_of_position_key h (hperm.mem_iff.mp (mem_destination.mp hs).1) (mem_destination.mp ht).1
  · exact (destination_perm _ _).trans ((hperm.filter _).trans (destination_perm _ _).symm)

theorem destination_ids_without :
    destination_ids (sessions.filter (·.id ≠ id)) group_id =
      (destination_ids sessions group_id).filter (· ≠ id) := by
  have hfilter : destination (sessions.filter (·.id ≠ id)) group_id =
      (destination sessions group_id).filter (·.id ≠ id) := by
    refine List.Perm.eq_of_pairwise (fun s t hs ht => ?_) (pairwise_destination _ _)
      ((pairwise_destination _ _).filter _) ?_
    · exact eq_of_position_key h (List.mem_of_mem_filter (mem_destination.mp hs).1)
        (mem_destination.mp (List.mem_of_mem_filter ht)).1
    · refine (destination_perm _ _).trans ?_
      rw [List.filter_comm]
      exact ((destination_perm _ _).filter _).symm
  change (destination (sessions.filter (·.id ≠ id)) group_id).map (·.id) =
    ((destination sessions group_id).map (·.id)).filter (· ≠ id)
  rw [hfilter, List.filter_map]
  rfl

/-- A group whose places follow a list is in the order of that list. -/
theorem destination_ids_eq (hids : ids.Nodup)
    (hgroup : ∀ s ∈ sessions, s.group_id = group_id ↔ s.id ∈ ids)
    (hall : ∀ id ∈ ids, ∃ s ∈ sessions, s.id = id)
    (hplace : ∀ s ∈ sessions, s.id ∈ ids → s.position = (ids.idxOf s.id + 1) * PositionKey.STRIDE) :
    destination_ids sessions group_id = ids := by
  have hperm : (destination_ids sessions group_id).Perm ids := by
    rw [List.perm_ext_iff_of_nodup (nodup_destination_ids h) hids]
    intro id
    rw [mem_destination_ids]
    constructor
    · rintro ⟨s, hs, hsame, rfl⟩
      exact (hgroup s hs).mp hsame
    · intro hid
      obtain ⟨s, hs, rfl⟩ := hall id hid
      exact ⟨s, hs, (hgroup s hs).mpr hid, rfl⟩
  refine @List.Perm.eq_of_pairwise _ (fun a b => ids.idxOf a ≤ ids.idxOf b) _ _ ?_ ?_ ?_ hperm
  · intro a b ha hb hab hba
    exact (List.idxOf_inj (hperm.mem_iff.mp ha)).mp (Nat.le_antisymm hab hba)
  · change ((destination sessions group_id).map (·.id)).Pairwise _
    rw [List.pairwise_map]
    refine (pairwise_destination sessions group_id).imp_of_mem fun hs ht hle => ?_
    obtain ⟨hs, hsg⟩ := mem_destination.mp hs
    obtain ⟨ht, htg⟩ := mem_destination.mp ht
    have hposition := Prod.Lex.monotone_fst _ _ hle
    unfold position_key at hposition
    rw [hplace _ hs ((hgroup _ hs).mp hsg), hplace _ ht ((hgroup _ ht).mp htg)] at hposition
    have := Nat.le_of_mul_le_mul_right hposition (by decide)
    omega
  · rw [List.pairwise_iff_getElem]
    intro m n hm hn hlt
    rw [hids.idxOf_getElem, hids.idxOf_getElem]
    exact Nat.le_of_lt hlt

end

/-! ## Rebalancing -/

theorem rebalanced_ok {position : Nat} (h : PositionKey.rebalanced index = some position) :
    position = (index + 1) * PositionKey.STRIDE := by
  unfold PositionKey.rebalanced at h
  split at h
  · exact (Option.some.inj h).symm
  · cases h

def rebalancedIn (group_id : Option GroupId) (index : Nat) (ids : List HostedSessionId)
    (s : HostedSession) : HostedSession :=
  if s.id ∈ ids then
    { s with group_id, position := (index + ids.idxOf s.id + 1) * PositionKey.STRIDE }
  else s

theorem rebalance_destination_ok (h : (sessions.map (·.id)).Nodup) (hids : ids.Nodup)
    (hok : rebalance_destination group_id sessions index ids = .ok sessions') :
    sessions' = sessions.map (rebalancedIn group_id index ids) ∧
      ∀ id ∈ ids, ∃ s ∈ sessions, s.id = id := by
  induction ids generalizing sessions index with
  | nil =>
    refine ⟨?_, fun id hid => by cases hid⟩
    rw [← Except.ok.inj hok]
    exact (List.map_id'' (fun s => rfl) _).symm
  | cons id rest ih =>
    rw [List.nodup_cons] at hids
    unfold rebalance_destination at hok
    split at hok
    · cases hok
    rename_i hknown
    split at hok
    · cases hok
    rename_i position hposition
    obtain rfl := rebalanced_ok hposition
    obtain ⟨s, hs, hid⟩ : ∃ s ∈ sessions, s.id = id := by
      simpa only [List.all_eq_true, decide_eq_true_eq, not_forall, not_not, exists_prop] using hknown
    rw [updateFirst_key h] at hok
    have hkept : ∀ f : HostedSession → HostedSession, (∀ s, (f s).id = s.id) →
        (sessions.map f).map (·.id) = sessions.map (·.id) := by
      intro f hf
      rw [List.map_map]
      exact List.map_congr_left fun s _ => hf s
    have hsame := hkept (fun s => if s.id = id then
      { s with group_id, position := (index + 1) * PositionKey.STRIDE } else s) (by
        intro s
        split <;> rfl)
    obtain ⟨rfl, hall⟩ := ih (by rw [hsame]; exact h) hids.2 hok
    refine ⟨?_, ?_⟩
    · rw [List.map_map]
      apply List.map_congr_left
      intro t _
      unfold rebalancedIn
      by_cases ht : t.id = id
      · simp [ht, hids.1]
      · have : index + 1 + rest.idxOf t.id = index + (rest.idxOf t.id + 1) := by omega
        simp [ht, Ne.symm ht, this]
    · rw [List.forall_mem_cons]
      refine ⟨⟨s, hs, hid⟩, fun other hother => ?_⟩
      obtain ⟨t, ht, rfl⟩ := hall other hother
      obtain ⟨u, hu, rfl⟩ := List.mem_map.mp ht
      refine ⟨u, hu, ?_⟩
      split <;> rfl

/-! ## The place before another session -/

/-- The order with the session in its new place. -/
def StandsBefore (others ids : List HostedSessionId) (id : HostedSessionId)
    (before : Option HostedSessionId) : Prop :=
  match before with
  | none => ids = others ++ [id]
  | some before_id => ∃ l r, others = l ++ before_id :: r ∧ ids = l ++ id :: before_id :: r

theorem insertIdx_append {l r : List HostedSessionId} {n : Nat} (h : n = l.length) :
    (l ++ r).insertIdx n id = l ++ id :: r := by
  subst h
  induction l with
  | nil => rfl
  | cons a l ih =>
    rw [List.cons_append, List.length_cons, List.insertIdx_succ_cons, ih, List.cons_append]

theorem inserted_ok (h : inserted others id before = .ok ids) :
    StandsBefore others ids id before := by
  unfold inserted at h
  cases before with
  | none =>
    simp at h
    exact h.symm
  | some before_id =>
    dsimp only at h
    split at h
    · cases h
    rename_i insert_at hfound
    rw [List.findIdx?_eq_some_iff_getElem] at hfound
    obtain ⟨hlt, hbefore, -⟩ := hfound
    rw [decide_eq_true_eq] at hbefore
    have hsplit : others = others.take insert_at ++ before_id :: others.drop (insert_at + 1) := by
      rw [← hbefore, List.getElem_cons_drop, List.take_append_drop]
    refine ⟨others.take insert_at, others.drop (insert_at + 1), hsplit, ?_⟩
    rw [← Except.ok.inj h]
    conv_lhs => rw [hsplit]
    apply insertIdx_append
    rw [List.length_take]
    omega

theorem StandsBefore.perm (h : StandsBefore others ids id before) : ids.Perm (id :: others) := by
  cases before with
  | none =>
    rw [h]
    exact List.perm_append_singleton _ _
  | some before_id =>
    obtain ⟨l, r, rfl, rfl⟩ := h
    exact List.perm_middle

/-! ## What a call changes -/

theorem require_revision_ok {actual : Revision} (h : require_revision expected actual = .ok u) :
    expected = actual := by
  unfold require_revision at h
  rw [refuseIf_ok_iff] at h
  exact not_not.mp h

theorem next_revision_ok {next : Revision} (h : next_revision revision = .ok next) :
    next = revision + 1 := by
  unfold next_revision multiplex_domain.checked_add at h
  split at h
  · cases h
  · rename_i hnext
    split at hnext
    · rw [← Except.ok.inj h]
      exact (Option.some.inj hnext).symm
    · cases hnext

theorem session_ok {session : HostedSession} (h : session? document id = .ok session) :
    document.sessions.find? (·.id = id) = some session := by
  unfold session? at h
  split at h
  · cases h
  · rename_i hfound
    rw [hfound, Except.ok.inj h]

/-- What a call writes in place of a document: it is sorted and one revision on, and the caller knew
the revision before. -/
structure Next (expected : Revision) (document next : SessionsDocument) : Prop where
  current : expected = document.revision
  revision : next.revision = document.revision + 1
  sorted : sort_sessions next.sessions = next.sessions

theorem create_session_next {session created : HostedSession}
    (h : create_session session expected document = .ok (created, some next)) :
    Next expected document next := by
  unfold create_session at h
  split at h
  · simp at h
  simp only [bind_ok_iff, pure_ok_iff, Prod.mk.injEq, Option.some.injEq] at h
  obtain ⟨_, hcurrent, _, -, _, -, revision, hrevision, -, rfl⟩ := h
  exact ⟨require_revision_ok hcurrent, next_revision_ok hrevision, sort_sessions_twice _⟩

theorem mutate_session_next {mutation : SessionMutation} {mutated : HostedSession}
    (h : mutate_session id expected mutation updated_at document = .ok (mutated, some next)) :
    Next expected document next := by
  unfold mutate_session at h
  simp only [bind_ok_iff] at h
  obtain ⟨session, -, candidate, -, h⟩ := h
  split at h
  · simp at h
  simp only [bind_ok_iff, pure_ok_iff, Prod.mk.injEq, Option.some.injEq] at h
  obtain ⟨_, hcurrent, revision, hrevision, -, rfl⟩ := h
  exact ⟨require_revision_ok hcurrent, next_revision_ok hrevision, sort_sessions_twice _⟩

theorem apply_placements_next {placements : List Placement} {placed : List HostedSession}
    (h : apply_placements placements expected updated_at document = .ok (placed, some next)) :
    Next expected document next := by
  unfold apply_placements at h
  simp only [bind_ok_iff] at h
  obtain ⟨_, hcurrent, _, -, _, -, h⟩ := h
  split at h
  · simp at h
  simp only [bind_ok_iff, pure_ok_iff, Prod.mk.injEq, Option.some.injEq] at h
  obtain ⟨revision, hrevision, -, rfl⟩ := h
  exact ⟨require_revision_ok hcurrent, next_revision_ok hrevision, sort_sessions_twice _⟩

/-! ## Moves -/

/-- The session stands where it was to go, and nothing else about the list is different but the
places within the group, whose other sessions keep their order. -/
structure MovedBefore (id : HostedSessionId) (group_id : Option GroupId)
    (before : Option HostedSessionId) (old new : List HostedSession) : Prop where
  order : StandsBefore ((destination_ids old group_id).filter (· ≠ id)) (destination_ids new group_id)
    id before
  rest : ∀ s ∈ old, s.id ≠ id → ∃ position, { s with position } ∈ new ∧
    (s.group_id ≠ group_id → position = s.position)
  moved : ∃ s ∈ old, s.id = id ∧ ∃ position revision updated_at,
    { s with group_id, position, revision, updated_at } ∈ new
  known : (new.map (·.id)).Perm (old.map (·.id))

theorem MovedBefore.of_perm {old new old' new' : List HostedSession}
    (h : MovedBefore id group_id before old new) (hids : (old.map (·.id)).Nodup)
    (hold : old'.Perm old) (hnew : new'.Perm new) : MovedBefore id group_id before old' new' where
  order := by
    have hnodup : (new.map (·.id)).Nodup := h.known.nodup_iff.mpr hids
    rw [destination_ids_perm hids hold, destination_ids_perm hnodup hnew]
    exact h.order
  rest s hs hne := by
    obtain ⟨position, hmem, hsame⟩ := h.rest s (hold.mem_iff.mp hs) hne
    exact ⟨position, hnew.mem_iff.mpr hmem, hsame⟩
  moved := by
    obtain ⟨s, hs, hid, position, revision, updated_at, hmem⟩ := h.moved
    exact ⟨s, hold.mem_iff.mpr hs, hid, position, revision, updated_at, hnew.mem_iff.mpr hmem⟩
  known := ((hnew.map _).trans h.known).trans (hold.map _).symm

theorem moved_in_place {moving : HostedSession} (hmoving : moving ∈ sessions) (hid : moving.id = id)
    (hgroup : moving.group_id = group_id)
    (horder : StandsBefore ((destination_ids sessions group_id).filter (· ≠ id))
      (destination_ids sessions group_id) id before) :
    MovedBefore id group_id before sessions sessions where
  order := horder
  rest s hs _ := ⟨s.position, hs, fun _ => rfl⟩
  moved := by
    subst hgroup
    exact ⟨moving, hmoving, hid, moving.position, moving.revision, moving.updated_at, hmoving⟩
  known := List.Perm.refl _

def movedIn (id : HostedSessionId) (group_id : Option GroupId) (revision : Revision) (updated_at : Nat)
    (ids : List HostedSessionId) (s : HostedSession) : HostedSession :=
  if s.id = id then { rebalancedIn group_id 0 ids s with group_id, revision, updated_at }
  else rebalancedIn group_id 0 ids s

@[simp] theorem rebalancedIn_id : (rebalancedIn group_id index ids s).id = s.id := by
  unfold rebalancedIn
  split <;> rfl

@[simp] theorem movedIn_id : (movedIn id group_id revision updated_at ids s).id = s.id := by
  unfold movedIn
  split <;> exact rebalancedIn_id

theorem map_movedIn_id :
    (sessions.map (movedIn id group_id revision updated_at ids)).map (·.id) = sessions.map (·.id) := by
  rw [List.map_map]
  exact List.map_congr_left fun s _ => movedIn_id

theorem StandsBefore.nodup
    (horder : StandsBefore ((destination_ids sessions group_id).filter (· ≠ id)) ids id before)
    (h : (sessions.map (·.id)).Nodup) : ids.Nodup := by
  rw [horder.perm.nodup_iff, List.nodup_cons]
  refine ⟨fun hmem => ?_, (nodup_destination_ids h).filter _⟩
  exact of_decide_eq_true (List.mem_filter.mp hmem).2 rfl

theorem moved_elsewhere (h : (sessions.map (·.id)).Nodup) (hknown : ∃ s ∈ sessions, s.id = id)
    (horder : StandsBefore ((destination_ids sessions group_id).filter (· ≠ id)) ids id before) :
    MovedBefore id group_id before sessions
      (sessions.map (movedIn id group_id revision updated_at ids)) := by
  have hmem : ∀ x, x ∈ ids ↔ x = id ∨ x ∈ destination_ids sessions group_id ∧ x ≠ id := by
    intro x
    rw [horder.perm.mem_iff, List.mem_cons, List.mem_filter, decide_eq_true_eq]
  have hnodup := horder.nodup h
  -- The other sessions of the list are those of the group.
  have hgroup : ∀ s ∈ sessions, s.id ≠ id → (s.id ∈ ids ↔ s.group_id = group_id) := by
    intro s hs hne
    rw [hmem, mem_destination_ids]
    constructor
    · rintro (heq | ⟨⟨t, ht, htg, hts⟩, -⟩)
      · exact (hne heq).elim
      · rw [← List.inj_on_of_nodup_map h ht hs hts]
        exact htg
    · exact fun hsg => .inr ⟨⟨s, hs, hsg, rfl⟩, hne⟩
  have hplaced : destination_ids (sessions.map (movedIn id group_id revision updated_at ids)) group_id =
      ids := by
    refine destination_ids_eq (by rw [map_movedIn_id]; exact h) hnodup ?_ ?_ ?_
    · rw [List.forall_mem_map]
      intro s hs
      unfold movedIn rebalancedIn
      by_cases hid : s.id = id
      · simp [hid, (hmem id).mpr (.inl rfl)]
      · by_cases hin : s.id ∈ ids
        · simp [hid, hin]
        · simp [hid, hin]
          exact fun hsg => hin ((hgroup s hs hid).mpr hsg)
    · intro x hx
      have hsome : ∃ s ∈ sessions, s.id = x := by
        rcases (hmem x).mp hx with rfl | ⟨hx, -⟩
        · exact hknown
        · obtain ⟨s, hs, -, hid⟩ := mem_destination_ids.mp hx
          exact ⟨s, hs, hid⟩
      obtain ⟨s, hs, hid⟩ := hsome
      exact ⟨_, List.mem_map_of_mem hs, movedIn_id.trans hid⟩
    · rw [List.forall_mem_map]
      intro s hs
      rw [movedIn_id]
      intro hin
      unfold movedIn rebalancedIn
      split <;> simp
  refine ⟨?_, ?_, ?_, ?_⟩
  · rw [hplaced]
    exact horder
  · intro s hs hne
    by_cases hin : s.id ∈ ids
    · have hsg := (hgroup s hs hne).mp hin
      refine ⟨(0 + ids.idxOf s.id + 1) * PositionKey.STRIDE, ?_, fun hother => (hother hsg).elim⟩
      refine List.mem_map.mpr ⟨s, hs, ?_⟩
      unfold movedIn rebalancedIn
      rw [if_neg hne, if_pos hin, ← hsg]
    · refine ⟨s.position, List.mem_map.mpr ⟨s, hs, ?_⟩, fun _ => rfl⟩
      unfold movedIn rebalancedIn
      rw [if_neg hne, if_neg hin]
  · obtain ⟨s, hs, hid⟩ := hknown
    refine ⟨s, hs, hid, (0 + ids.idxOf s.id + 1) * PositionKey.STRIDE, revision, updated_at, ?_⟩
    refine List.mem_map.mpr ⟨s, hs, ?_⟩
    unfold movedIn rebalancedIn
    rw [if_pos hid, if_pos ((hmem s.id).mpr (.inl hid))]
  · rw [map_movedIn_id]

/-- What a move that answers has done. Before itself a session is not moved at all. -/
inductive Moved (id : HostedSessionId) (group_id : Option GroupId) (before : Option HostedSessionId)
    (expected : Revision) (document : SessionsDocument) : Option SessionsDocument → Prop where
  | itself (same : before = some id) : Moved id group_id before expected document none
  | in_place
      (moved : MovedBefore id group_id before document.sessions document.sessions) :
      Moved id group_id before expected document none
  | elsewhere (next : SessionsDocument)
      (changed : Next expected document next)
      (moved : MovedBefore id group_id before document.sessions next.sessions) :
      Moved id group_id before expected document (some next)

theorem move_session_before_ok {moved : HostedSession} {change : Option SessionsDocument}
    (hids : (document.sessions.map (·.id)).Nodup)
    (h : move_session_before id group_id before expected updated_at document = .ok (moved, change)) :
    Moved id group_id before expected document change := by
  unfold move_session_before at h
  simp only [bind_ok_iff] at h
  obtain ⟨_, hcurrent, moving, hmoving, h⟩ := h
  have hsort := sort_sessions_perm document.sessions
  have hids' : ((sort_sessions document.sessions).map (·.id)).Nodup := (hsort.map _).nodup_iff.mpr hids
  have hfound := session_ok hmoving
  have hid : moving.id = id := by
    have := List.find?_some hfound
    rwa [decide_eq_true_eq] at this
  have hmem := List.mem_of_find?_eq_some hfound
  split at h
  · rename_i hsame
    simp at h
    rw [← h.2]
    exact Moved.itself hsame
  simp only [bind_ok_iff] at h
  obtain ⟨ids, hinserted, h⟩ := h
  have hperm : ((sort_sessions document.sessions).eraseP (·.id = id) ++ [moving]).Perm
      (sort_sessions document.sessions) :=
    (List.perm_append_singleton _ _).trans (perm_eraseP hfound)
  have horder := inserted_ok hinserted
  rw [eraseP_key hids', destination_ids_without hids'] at horder
  split at h
  · rename_i hplace
    simp at h
    rw [← h.2]
    rw [hplace.2] at horder
    exact Moved.in_place ((moved_in_place hmem hid hplace.1 horder).of_perm hids' hsort.symm hsort.symm)
  · simp only [bind_ok_iff, pure_ok_iff, Prod.mk.injEq] at h
    obtain ⟨rebalanced, hrebalanced, revision, hrevision, session, -, -, rfl⟩ := h
    have hall : (((sort_sessions document.sessions).eraseP (·.id = id) ++ [moving]).map (·.id)).Nodup :=
      (hperm.map _).nodup_iff.mpr hids'
    obtain ⟨rfl, -⟩ := rebalance_destination_ok hall (horder.nodup hids') hrebalanced
    generalize (sort_sessions document.sessions).eraseP (·.id = id) ++ [moving] = sessions at hperm hall
    refine Moved.elsewhere _
      ⟨require_revision_ok hcurrent, next_revision_ok hrevision, sort_sessions_twice _⟩ ?_
    have hsessions : updateFirst (fun s : HostedSession => decide (s.id = id))
        (fun s => { s with group_id, revision, updated_at })
        (sessions.map (rebalancedIn group_id 0 ids)) =
          sessions.map (movedIn id group_id revision updated_at ids) := by
      rw [updateFirst_key, List.map_map]
      · apply List.map_congr_left
        intro s _
        simp [Function.comp, movedIn]
      · rw [List.map_map]
        rw [show (fun s : HostedSession => s.id) ∘ rebalancedIn group_id 0 ids = fun s => s.id from
          funext fun s => rebalancedIn_id]
        exact hall
    rw [hsessions]
    exact (moved_elsewhere hids' ⟨moving, hmem, hid⟩ horder).of_perm hids' hsort.symm
      ((sort_sessions_perm _).trans (hperm.map _))

end multiplex_store.session_list
