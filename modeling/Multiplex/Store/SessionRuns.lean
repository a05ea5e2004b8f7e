-- Clients of the list of sessions that work on it at the same time. Each call
-- is one step under the lock of the list, and whatever their order, the list
-- stays valid and every session keeps its place until it is told to move.
import Multiplex.Lib.Locked
import Multiplex.Store.SessionLaws

open Checks FirstMatch
open multiplex_domain.session
open multiplex_store.controller_devices (AtomicWrite)

namespace multiplex_store.session_list

inductive SessionCall where
  | create_session (session : HostedSession) (expected : Revision)
  | mutate_session (id : HostedSessionId) (expected : Revision) (mutation : SessionMutation)
      (updated_at : Nat)
  | move_session_before (id : HostedSessionId) (group_id : Option GroupId)
      (before : Option HostedSessionId) (expected : Revision) (updated_at : Nat)
  | apply_placements (placements : List Placement) (expected : Revision) (updated_at : Nat)
  | remove_session (plan : SessionRemovalPlan) (expected : Revision)

/-- The revision that the caller takes for the current one. -/
def SessionCall.expected : SessionCall → Revision
  | .create_session _ expected | .mutate_session _ expected _ _
  | .move_session_before _ _ _ expected _ | .apply_placements _ expected _
  | .remove_session _ expected => expected

/-- A call with what becomes of its files. -/
structure Request where
  call : SessionCall
  disk : Disk

inductive Answer where
  | session (session : HostedSession)
  | sessions (sessions : List HostedSession)
  | removed (removed : QuarantinedSession)
  deriving DecidableEq

def answered {α : Type} (f : α → Answer) (result : Stored α × SessionStore) :
    Stored Answer × SessionStore := (result.1.map f, result.2)

/-- What a call does to the store that it finds under the lock. -/
def exec (encoding : Encoding) (request : Request) (store : SessionStore) :
    Stored Answer × SessionStore :=
  match request.call with
  | .create_session session expected =>
    answered .session (edit encoding store request.disk.write (create_session session expected))
  | .mutate_session id expected mutation updated_at =>
    answered .session (edit encoding store request.disk.write
      (mutate_session id expected mutation updated_at))
  | .move_session_before id group_id before expected updated_at =>
    answered .session (edit encoding store request.disk.write
      (move_session_before id group_id before expected updated_at))
  | .apply_placements placements expected updated_at =>
    answered .sessions (edit encoding store request.disk.write
      (apply_placements placements expected updated_at))
  | .remove_session plan expected =>
    answered .removed (remove_session encoding store plan expected request.disk)

variable {encoding : Encoding}

/-! ## One call -/

/-- What a call leaves behind: the document that was there, or the next one, which is valid. -/
inductive Stepped (expected : Revision) (store : SessionStore) : SessionsDocument → Prop where
  | same : Stepped expected store store.document
  | next (document : SessionsDocument)
      (current : expected = store.document.revision)
      (revision : document.revision = store.document.revision + 1)
      (valid : validate_document document = .ok ()) : Stepped expected store document

/-- What an edit does. -/
structure Edited {α : Type} (store : SessionStore) (write : AtomicWrite) (expected : Revision)
    (result : Stored α × SessionStore) : Prop where
  stepped : Stepped expected store result.2.document
  error : ∀ e, result.1 = .error e → write ≠ .failed_after_rename → result.2 = store

theorem edit_edited {α : Type} (encoding : Encoding) (store : SessionStore) (write : AtomicWrite)
    {expected : Revision} {change : SessionsDocument → Stored (α × Option SessionsDocument)}
    (hnext : ∀ document answer next, validate_document store.document = .ok () →
      document = { store.document with sessions := sort_sessions store.document.sessions } →
      change document = .ok (answer, some next) → Next expected document next) :
    Edited store write expected (edit encoding store write change) := by
  unfold edit
  split
  · exact ⟨Stepped.same, fun _ _ _ => rfl⟩
  rename_i document hread
  obtain ⟨hdocument, hvalid, -⟩ := read_document_ok hread
  split
  · exact ⟨Stepped.same, fun _ _ _ => rfl⟩
  · exact ⟨Stepped.same, fun _ _ _ => rfl⟩
  rename_i answer next hchange
  have h := hnext document answer next hvalid hdocument hchange
  subst hdocument
  have hwritten := write_document_written encoding store write h.sorted
  generalize write_document_locked encoding store next write = result at hwritten
  cases hwritten with
  | refused e => exact ⟨Stepped.same, fun _ _ _ => rfl⟩
  | stands result valid told =>
    have hstepped : Stepped expected store next := Stepped.next next h.current h.revision valid
    rcases told with ⟨rfl, -⟩ | ⟨⟨e, rfl⟩, hfailed⟩
    · exact ⟨hstepped, fun e he => by cases he⟩
    · exact ⟨hstepped, fun e' _ hwrite => (hwrite hfailed).elim⟩

variable {store : SessionStore}

variable {session : HostedSession} {id : HostedSessionId} {write : AtomicWrite}

theorem Edited.answered {α : Type} {expected : Revision} {result : Stored α × SessionStore}
    (h : Edited store write expected result) (f : α → Answer) :
    Edited store write expected (answered f result) where
  stepped := h.stepped
  error e he hwrite := by
    obtain ⟨result, after⟩ := result
    cases result with
    | error e' => exact h.error e' rfl hwrite
    | ok answer => cases he

theorem edit_moved {group_id : Option GroupId} {before : Option HostedSessionId}
    {expected : Revision} {updated_at : Nat} {after : SessionStore} (hbefore : before ≠ some id)
    (h : edit encoding store write (move_session_before id group_id before expected updated_at) =
      (.ok session, after)) :
    MovedBefore id group_id before store.document.sessions after.document.sessions := by
  unfold edit at h
  split at h
  · simp at h
  rename_i document hread
  obtain ⟨hdocument, hvalid, -⟩ := read_document_ok hread
  have hids := ids_nodup hvalid
  have hsort := sort_sessions_perm store.document.sessions
  have hids' : (document.sessions.map (·.id)).Nodup := by
    rw [hdocument]
    exact (hsort.map _).nodup_iff.mpr hids
  have hstored : store.document.sessions.Perm document.sessions := by
    rw [hdocument]
    exact hsort.symm
  split at h
  · simp at h
  · rename_i answer hchange
    rw [← (Prod.mk.inj h).2]
    cases move_session_before_ok hids' hchange with
    | itself same => exact (hbefore same).elim
    | in_place moved => exact moved.of_perm hids' hstored hstored
  · rename_i answer next hchange
    cases move_session_before_ok hids' hchange with
    | elsewhere _ changed moved =>
      have hwritten := write_document_written encoding store write changed.sorted
      generalize write_document_locked encoding store next write = result at h hwritten
      cases hwritten with
      | refused e => simp at h
      | stands result valid told =>
        rcases told with ⟨rfl, -⟩ | ⟨⟨e, rfl⟩, -⟩
        · rw [← (Prod.mk.inj h).2]
          exact moved.of_perm hids' hstored (List.Perm.refl _)
        · simp at h

/-! ## Removal -/

theorem quarantine_data_ok {moved : SessionStore} {quarantines exists_ : Bool}
    (h : quarantine_data store id quarantines = .ok (moved, exists_)) :
    moved.document = store.document ∧
      (exists_ = false ∧ moved = store ∨ exists_ = true ∧ restore_data moved id = store) := by
  unfold quarantine_data at h
  split at h
  · obtain ⟨rfl, rfl⟩ := h
    exact ⟨rfl, .inl ⟨rfl, rfl⟩⟩
  · cases h
  rename_i data hdata
  split at h
  · cases h
  rename_i hfree
  split at h
  · cases h
  obtain ⟨rfl, rfl⟩ := h
  refine ⟨rfl, .inr ⟨rfl, ?_⟩⟩
  have hnone : store.quarantine id = none := by simpa using hfree
  unfold restore_data
  simp
  rw [← hdata, ← hnone, Function.update_eq_self, Function.update_eq_self]

theorem removable_ok {plan : SessionRemovalPlan} {expected : Revision} {document : SessionsDocument}
    {manifest : SessionRemovalManifest}
    (h : removable encoding store plan expected = .ok (document, session, manifest)) :
    document = { store.document with sessions := sort_sessions store.document.sessions } ∧
      expected = store.document.revision := by
  unfold removable at h
  simp only [bind_ok_iff, pure_ok_iff, Prod.mk.injEq] at h
  obtain ⟨read, hread, _, hcurrent, _, -, _, -, _, -, _, -, _, -, rfl, -, -⟩ := h
  obtain ⟨rfl, -, -⟩ := read_document_ok hread
  exact ⟨rfl, require_revision_ok hcurrent⟩

/-- A removal steps as an edit does, and one that fails is undone, where the folder goes back and
the revision is not the last one. -/
theorem remove_session_stepped (encoding : Encoding) (store : SessionStore) (plan : SessionRemovalPlan)
    (expected : Revision) (disk : Disk) :
    Stepped expected store (remove_session encoding store plan expected disk).2.document ∧
      ∀ e, (remove_session encoding store plan expected disk).1 = .error e →
        disk.write ≠ .failed_after_rename → disk.restores = true →
        store.document.revision + 1 < 2 ^ 64 →
        (remove_session encoding store plan expected disk).2 = store := by
  unfold remove_session
  split
  · exact ⟨Stepped.same, fun _ _ _ _ _ => rfl⟩
  rename_i document session manifest hremovable
  obtain ⟨rfl, hcurrent⟩ := removable_ok hremovable
  split
  · exact ⟨Stepped.same, fun _ _ _ _ _ => rfl⟩
  rename_i moved source_exists hquarantine
  obtain ⟨hsame, hback⟩ := quarantine_data_ok hquarantine
  split
  · rename_i e hrevision
    refine ⟨by rw [hsame]; exact Stepped.same, fun _ _ _ _ hroom => ?_⟩
    unfold next_revision multiplex_domain.checked_add at hrevision
    rw [if_pos hroom] at hrevision
    cases hrevision
  rename_i revision hrevision
  dsimp only
  have hsorted : sort_sessions ((sort_sessions store.document.sessions).eraseP
      (·.id = plan.session_id)) =
      (sort_sessions store.document.sessions).eraseP (·.id = plan.session_id) :=
    sort_sessions_sorted ((pairwise_sort_sessions _).sublist List.eraseP_sublist)
  have hwritten := @write_document_written
    ⟨revision, (sort_sessions store.document.sessions).eraseP (·.id = plan.session_id)⟩ encoding moved
    disk.write hsorted
  generalize write_document_locked encoding moved _ disk.write = result at hwritten
  cases hwritten with
  | refused e =>
    have hrestored : (if source_exists = true ∧ disk.restores = true
        then restore_data moved session.id else moved).document = store.document := by
      split
      · exact hsame
      · exact hsame
    dsimp only
    refine ⟨by rw [hrestored]; exact Stepped.same, fun _ _ _ hrestores _ => ?_⟩
    rcases hback with ⟨rfl, rfl⟩ | ⟨rfl, hback⟩
    · rw [if_neg (fun h => Bool.false_ne_true h.1)]
    · rw [if_pos ⟨rfl, hrestores⟩, hback]
  | stands result valid told =>
    have hstepped : Stepped expected store
        ⟨revision, (sort_sessions store.document.sessions).eraseP (·.id = plan.session_id)⟩ :=
      Stepped.next _ hcurrent (next_revision_ok hrevision) valid
    rcases told with ⟨rfl, -⟩ | ⟨⟨e, rfl⟩, hfailed⟩
    · exact ⟨hstepped, fun e he => by cases he⟩
    · dsimp only
      refine ⟨?_, fun _ _ hwrite => (hwrite hfailed).elim⟩
      split
      · exact hstepped
      · exact hstepped

/-! ## What every call keeps -/

/-- The file system and the revision let a call that fails be undone. -/
def Request.Undone (request : Request) (store : SessionStore) : Prop :=
  request.disk.write ≠ .failed_after_rename ∧
    match request.call with
    | .remove_session .. => request.disk.restores = true ∧ store.document.revision + 1 < 2 ^ 64
    | _ => True

structure Kept (encoding : Encoding) (request : Request) (store : SessionStore) : Prop where
  valid : validate_document store.document = .ok () →
    validate_document (exec encoding request store).2.document = .ok ()
  revision : (exec encoding request store).2.document ≠ store.document →
    request.call.expected = store.document.revision ∧
      (exec encoding request store).2.document.revision = store.document.revision + 1
  error : ∀ e, (exec encoding request store).1 = .error e → request.Undone store →
    (exec encoding request store).2 = store
  moved : ∀ id group_id before expected updated_at answer,
    request.call = .move_session_before id group_id before expected updated_at →
    (exec encoding request store).1 = .ok answer → before ≠ some id →
    MovedBefore id group_id before store.document.sessions
      (exec encoding request store).2.document.sessions

theorem exec_stepped (encoding : Encoding) (request : Request) (store : SessionStore) :
    Stepped request.call.expected store (exec encoding request store).2.document ∧
      ∀ e, (exec encoding request store).1 = .error e → request.Undone store →
        (exec encoding request store).2 = store := by
  obtain ⟨call, disk⟩ := request
  have hedited : ∀ {α : Type} {f : α → Answer} {expected : Revision} {undone : Prop}
      {change : SessionsDocument → Stored (α × Option SessionsDocument)},
      (∀ document answer next, change document = .ok (answer, some next) →
        Next expected document next) →
      Stepped expected store (answered f (edit encoding store disk.write change)).2.document ∧
        ∀ e, (answered f (edit encoding store disk.write change)).1 = .error e →
          disk.write ≠ .failed_after_rename ∧ undone →
          (answered f (edit encoding store disk.write change)).2 = store := by
    intro α f expected undone change hnext
    have h := (edit_edited encoding store disk.write
      fun document answer next _ _ => hnext document answer next).answered f
    exact ⟨h.stepped, fun e he hundone => h.error e he hundone.1⟩
  cases call with
  | create_session session expected => exact hedited fun _ _ _ => create_session_next
  | mutate_session id expected mutation updated_at => exact hedited fun _ _ _ => mutate_session_next
  | apply_placements placements expected updated_at =>
    exact hedited fun _ _ _ => apply_placements_next
  | move_session_before id group_id before expected updated_at =>
    have h := (@edit_edited _ encoding store disk.write expected
      (move_session_before id group_id before expected updated_at) (by
        intro document answer next hvalid hdocument hchange
        have hids : (document.sessions.map (·.id)).Nodup := by
          rw [hdocument]
          exact ((sort_sessions_perm _).map _).nodup_iff.mpr (ids_nodup hvalid)
        cases move_session_before_ok hids hchange with
        | elsewhere _ changed moved => exact changed)).answered .session
    exact ⟨h.stepped, fun e he hundone => h.error e he hundone.1⟩
  | remove_session plan expected =>
    obtain ⟨hstepped, herror⟩ := remove_session_stepped encoding store plan expected disk
    refine ⟨hstepped, fun e he hundone => ?_⟩
    unfold exec answered at he ⊢
    dsimp only at he ⊢
    generalize remove_session encoding store plan expected disk = result at he herror ⊢
    obtain ⟨result, after⟩ := result
    cases result with
    | error e' => exact herror e' rfl hundone.1 hundone.2.1 hundone.2.2
    | ok answer => cases he

theorem kept (request : Request) (store : SessionStore) : Kept encoding request store := by
  obtain ⟨hstepped, herror⟩ := exec_stepped encoding request store
  refine ⟨fun hvalid => ?_, fun hchanged => ?_, herror, ?_⟩
  · generalize (exec encoding request store).2.document = document at hstepped
    cases hstepped with
    | same => exact hvalid
    | next _ current revision valid => exact valid
  · generalize (exec encoding request store).2.document = document at hstepped hchanged
    cases hstepped with
    | same => exact (hchanged rfl).elim
    | next _ current revision valid => exact ⟨current, revision⟩
  · rintro id group_id before expected updated_at answer hcall hok hbefore
    obtain ⟨call, disk⟩ := request
    subst hcall
    unfold exec answered at hok ⊢
    dsimp only at hok ⊢
    cases hresult : edit encoding store disk.write
        (move_session_before id group_id before expected updated_at) with
    | mk result after =>
      rw [hresult] at hok
      cases result with
      | error e => cases hok
      | ok session => exact edit_moved hbefore hresult

/-! ## Clients at the same time -/

/-- The calls take effect one after the other, and each keeps what a call must keep. -/
structure ListIsKept (encoding : Encoding) (store : SessionStore)
    (s : Workers.State (Locked.Shared SessionStore Request (Stored Answer))
      (Locked.Call SessionStore Request (Stored Answer))) : Prop where
  ordered : Locked.Ordered (exec encoding) store s
  valid : validate_document s.shared.store.document = .ok ()
  kept : ∀ before request answer later, s.shared.log = before ++ (request, answer) :: later →
    Kept encoding request (Locked.serial (exec encoding) store (before.map Prod.fst))

theorem serial_valid (hvalid : validate_document store.document = .ok ())
    (requests : List Request) :
    validate_document (Locked.serial (exec encoding) store requests).document = .ok () := by
  induction requests generalizing store with
  | nil => exact hvalid
  | cons request requests ih => exact ih ((kept request store).valid hvalid)

/-- Whatever the order in which the clients take their steps, the list is kept, and what has taken
effect at some time stays before all that takes effect later. -/
theorem clients_at_once_keep_the_list {store : SessionStore}
    (hvalid : validate_document store.document = .ok ())
    (events later : List (Workers.Event Request Locked.Turn)) :
    let program := Locked.calls (exec encoding)
    ListIsKept encoding store (Workers.run program (Locked.idle store) events) ∧
      (Workers.run program (Locked.idle store) events).shared.log <+:
        (Workers.run program (Locked.idle store) (events ++ later)).shared.log := by
  intro program
  have hordered : Locked.Ordered (exec encoding) store (Workers.run program (Locked.idle store) events) :=
    Locked.ordered_run events
  refine ⟨⟨hordered, ?_, fun before request answer later _ => kept request _⟩, ?_⟩
  · rw [hordered.replayed]
    exact serial_valid hvalid _
  · rw [Workers.run_append]
    exact Locked.log_run _ _

def sampleSession (id : HostedSessionId) (group_id : Option GroupId) (position : PositionKey) :
    HostedSession where
  id := id
  folder := "/home"
  group_id := group_id
  preset_id := none
  title := "shell".toList
  title_source := .Default
  lifecycle := .Live
  activity := ActivityAggregate.default
  pinned := false
  position := position
  last_output_sequence := 0
  read_through_sequence := 0
  unread_sequence := none
  archived_at := none
  created_at := 1
  updated_at := 1
  revision := 1

def sampleStore : SessionStore where
  document := ⟨3, [sampleSession 7 none 1024, sampleSession 8 (some 1) 1024,
    sampleSession 9 (some 1) 2048]⟩
  data _ := none
  quarantine _ := none

def sampleEncoding : Encoding := ⟨fun _ => 1000, fun _ => 300⟩

def sampleDisk : Disk := ⟨.written, true, true⟩

/-- Two clients move sessions by the same revision, and the first to get the lock wins. -/
def sampleMoves : List (Workers.Event Request Locked.Turn) :=
  [.start ⟨.move_session_before 7 (some 1) (some 9) 3 5, sampleDisk⟩,
    .start ⟨.move_session_before 8 none none 3 6, sampleDisk⟩,
    .act 0 .go, .act 1 .go, .act 0 .go, .act 0 .go]

theorem two_movers_keep_the_list : ListIsKept sampleEncoding sampleStore
        (Workers.run (Locked.calls (exec sampleEncoding)) (Locked.idle sampleStore) sampleMoves) ∧
      (Workers.run (Locked.calls (exec sampleEncoding)) (Locked.idle sampleStore)
        sampleMoves).shared.log <+:
        (Workers.run (Locked.calls (exec sampleEncoding)) (Locked.idle sampleStore)
          (sampleMoves ++ [.act 1 .go, .act 1 .go, .act 1 .go])).shared.log :=
  clients_at_once_keep_the_list (by decide +kernel) sampleMoves [.act 1 .go, .act 1 .go, .act 1 .go]

/-- A session that is to go before itself stays where it is, whichever group it was to go to. -/
theorem before_itself_nothing_moves :
    ¬ ∀ (encoding : Encoding) (store : SessionStore) (disk : Disk) (id : HostedSessionId)
      (group_id : Option GroupId) (before : Option HostedSessionId) (expected : Revision)
      (updated_at : Nat) (answer : Answer), validate_document store.document = .ok () →
      (exec encoding ⟨.move_session_before id group_id before expected updated_at, disk⟩ store).1 =
        .ok answer → MovedBefore id group_id before store.document.sessions
        (exec encoding ⟨.move_session_before id group_id before expected updated_at, disk⟩
          store).2.document.sessions := by
  intro h
  have hmoved := h sampleEncoding sampleStore sampleDisk 7 (some 1) (some 7) 3 5
    (.session (sampleSession 7 none 1024)) (by decide +kernel) (by decide +kernel)
  obtain ⟨s, hs, hid, position, revision, updated_at, hmem⟩ := hmoved.moved
  have hin : (exec sampleEncoding ⟨.move_session_before 7 (some 1) (some 7) 3 5, sampleDisk⟩
      sampleStore).2.document.sessions.all (fun s => s.id ≠ 7 ∨ s.group_id = none) = true := by
    decide +kernel
  have hgroup := List.all_eq_true.mp hin _ hmem
  simp [hid] at hgroup

end multiplex_store.session_list
