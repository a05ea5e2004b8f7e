-- Whether a session still asks for attention, over any mutations in any order.
-- An activity is cut to the output seen so far before it is compared with what
-- was read, so one that comes before its output can be lost.
import Multiplex.Store.Sessions

open Checks

namespace multiplex_domain.session

open multiplex_store.session_list (validate_session)

def HostedSession.unread (session : HostedSession) : Bool :=
  session.unread_sequence.any fun sequence => session.read_through_sequence < sequence

/-! ## The reducer on a session in place -/

/-- As the code runs it: what was written before an error would stay. -/
def reduce_in_place (mutation : SessionMutation) :
    ExceptT SessionStateError (StateM HostedSession) Bool := do
  let session ← get
  match mutation with
  | .Rename title =>
    if session.title = title ∧ session.title_source = .Manual then return false
    modify fun session => { session with title }
    modify fun session => { session with title_source := .Manual }
  | .ApplyAutomaticTitle title =>
    if session.title_source ≠ .Default then return false
    modify fun session => { session with title }
    modify fun session => { session with title_source := .Automatic }
  | .SetPinned pinned =>
    if session.pinned = pinned then return false
    modify fun session => { session with pinned }
  | .Move group_id position =>
    if session.group_id = group_id ∧ session.position = position then return false
    modify fun session => { session with group_id }
    modify fun session => { session with position }
  | .MarkRead through =>
    let through := min through session.last_output_sequence
    if through ≤ session.read_through_sequence then return false
    modify fun session => { session with read_through_sequence := through }
    modify fun session =>
      { session with unread_sequence := unread_after session.unread_sequence through }
  | .MarkUnread sequence =>
    if sequence = 0 ∨ session.last_output_sequence < sequence then throw .InvalidSequence
    if session.unread_sequence = some sequence ∧ session.read_through_sequence < sequence then
      return false
    modify fun session => { session with unread_sequence := some sequence }
    modify fun session =>
      { session with read_through_sequence := min session.read_through_sequence (sequence - 1) }
  | .ObserveOutput through =>
    if through < session.last_output_sequence then return false
    if through = session.last_output_sequence then return false
    modify fun session => { session with last_output_sequence := through }
  | .SetActivity activity =>
    if session.activity = activity then return false
    modify fun session => apply_activity session activity none
  | .ApplyActivity activity visible_through =>
    modify fun session => apply_activity session activity visible_through
    if (← get) = session then return false
  | .SetLifecycle lifecycle =>
    if session.lifecycle = lifecycle then return false
    if ¬ legal_lifecycle_transition session.lifecycle lifecycle then
      throw (.InvalidLifecycleTransition session.lifecycle lifecycle)
    modify fun session => { session with lifecycle }
  | .Reconcile lifecycle activity through =>
    if session.lifecycle ≠ lifecycle ∧ ¬ legal_lifecycle_transition session.lifecycle lifecycle then
      throw (.InvalidLifecycleTransition session.lifecycle lifecycle)
    let through := max through session.last_output_sequence
    if session.lifecycle = lifecycle ∧ session.activity = activity ∧
        session.last_output_sequence = through then return false
    modify fun session => { session with lifecycle }
    modify fun session => { session with last_output_sequence := through }
    modify fun session => apply_activity session activity none
  | .Archive time =>
    if session.archived_at.isSome then return false
    if ¬ session.lifecycle.is_exited then throw .StopRequiredBeforeArchive
    modify fun session => { session with archived_at := some time }
  | .Restore =>
    if session.archived_at = none then return false
    modify fun session => { session with archived_at := none }
  return true

/-- The answer, and the session as it is left. -/
def run (session : HostedSession) (mutation : SessionMutation) :
    Except SessionStateError Bool × HostedSession :=
  (reduce_in_place mutation).run.run session

section
variable {α : Type} (f : HostedSession → HostedSession) (session : HostedSession)

theorem run_get (next : HostedSession → ExceptT SessionStateError (StateM HostedSession) α) :
    (get >>= next).run.run session = (next session).run.run session := rfl

theorem run_modify (next : Unit → ExceptT SessionStateError (StateM HostedSession) α) :
    (modify f >>= next).run.run session = (next ()).run.run (f session) := rfl

end

theorem run_eq (session : HostedSession) (mutation : SessionMutation) :
    run session mutation = match reduce_session session mutation with
      | .ok none => (.ok false, session)
      | .ok (some next) => (.ok true, next)
      | .error error => (.error error, session) := by
  unfold run reduce_in_place reduce_session
  rw [run_get]
  cases mutation with
  | ObserveOutput through =>
    rcases lt_trichotomy through session.last_output_sequence with hlt | heq | hgt
    · simp only [if_pos hlt, if_pos hlt.le]
      rfl
    · simp [heq]
      rfl
    · simp only [if_neg hgt.not_gt, if_neg hgt.ne', if_neg hgt.not_ge]
      rfl
  | ApplyActivity activity visible_through =>
    simp only [run_modify, run_get]
    split
    · rename_i hsame
      rw [hsame]
      rfl
    · rfl
  | _ =>
    dsimp only
    split_ifs <;> rfl

/-! ## The marks of a session -/

/-- What holds of the marks of a session that only ran mutations. -/
structure Marked (session : HostedSession) : Prop where
  unread : ∀ u ∈ session.unread_sequence,
    session.read_through_sequence < u ∧ u ≤ session.last_output_sequence
  read : session.read_through_sequence ≤ session.last_output_sequence
  archived : session.archived_at.isSome = true → session.lifecycle.is_exited = true

section
variable {session next : HostedSession} {mutation : SessionMutation} {activity : ActivityAggregate}
  {visible : Option OutputSequence}

theorem exited_stays {source : HostedSessionState} (target : HostedSessionState)
    (h : source.is_exited = true) : legal_lifecycle_transition source target = false := by
  cases source <;> simp_all [HostedSessionState.is_exited, legal_lifecycle_transition]

theorem unread_after_eq {unread : Option OutputSequence} {through u : OutputSequence} :
    unread_after unread through = some u ↔ unread = some u ∧ through < u := by
  unfold unread_after
  simp [Option.filter_eq_some_iff]

theorem viewed_marked {visible : OutputSequence} (h : Marked session)
    (hvisible : visible ≤ session.last_output_sequence) : Marked { session with
      read_through_sequence := max session.read_through_sequence visible
      unread_sequence := unread_after session.unread_sequence visible } := by
  refine ⟨fun u hu => ?_, max_le h.read hvisible, h.archived⟩
  obtain ⟨hmem, hlt⟩ := unread_after_eq.mp hu
  obtain ⟨hread, hshown⟩ := h.unread u hmem
  exact ⟨max_lt hread hlt, hshown⟩

theorem raised_marked {attention : OutputSequence} (h : Marked session)
    (hread : session.read_through_sequence < attention)
    (hshown : attention ≤ session.last_output_sequence) : Marked { session with
      unread_sequence := some (session.unread_sequence.elim attention (min · attention)) } := by
  refine ⟨fun u hu => ?_, h.read, h.archived⟩
  cases hunread : session.unread_sequence with
  | none =>
    simp [hunread] at hu
    rw [← hu]
    exact ⟨hread, hshown⟩
  | some current =>
    simp [hunread] at hu
    rw [← hu]
    obtain ⟨hcurrent, -⟩ := h.unread current hunread
    exact ⟨lt_min hcurrent hread, (min_le_right _ _).trans hshown⟩

theorem apply_activity_marked (h : Marked session) :
    Marked (apply_activity session activity visible) := by
  have hwith : Marked { session with activity } := ⟨h.unread, h.read, h.archived⟩
  cases visible with
  | none =>
    simp only [apply_activity]
    split
    · exact hwith
    · rename_i attention hattention
      obtain ⟨sequence, -, rfl⟩ := Option.map_eq_some_iff.mp hattention
      split
      · rename_i hread
        exact raised_marked hwith hread (min_le_right _ _)
      · exact hwith
  | some visible =>
    have hviewed := viewed_marked hwith (min_le_right visible session.last_output_sequence)
    simp only [apply_activity]
    split
    · exact hviewed
    · rename_i attention hattention
      obtain ⟨sequence, -, rfl⟩ := Option.map_eq_some_iff.mp hattention
      split
      · rename_i hread
        exact raised_marked hviewed hread (min_le_right _ _)
      · exact hviewed

theorem reduce_marked (h : Marked session)
    (hnext : reduce_session session mutation = .ok (some next)) : Marked next := by
  unfold reduce_session at hnext
  cases mutation with
  | MarkRead through =>
    dsimp only at hnext
    split_ifs at hnext with hbehind
    · cases hnext
    cases hnext
    have hmarked := viewed_marked h (min_le_right through session.last_output_sequence)
    rw [max_eq_right (not_le.mp hbehind).le] at hmarked
    exact hmarked
  | MarkUnread sequence =>
    dsimp only at hnext
    split_ifs at hnext with hinvalid hsame
    · cases hnext
    cases hnext
    rw [not_or, not_lt] at hinvalid
    refine ⟨fun u hu => ?_, (min_le_left _ _).trans h.read, h.archived⟩
    obtain rfl : sequence = u := Option.mem_some_iff.mp hu
    exact ⟨(min_le_right _ _).trans_lt (Nat.sub_one_lt hinvalid.1), hinvalid.2⟩
  | ObserveOutput through =>
    dsimp only at hnext
    split_ifs at hnext with hbehind
    · cases hnext
    cases hnext
    have hahead := (not_le.mp hbehind).le
    refine ⟨fun u hu => ?_, h.read.trans hahead, h.archived⟩
    exact ⟨(h.unread u hu).1, (h.unread u hu).2.trans hahead⟩
  | SetActivity activity =>
    dsimp only at hnext
    split_ifs at hnext
    · cases hnext
    cases hnext
    exact apply_activity_marked h
  | ApplyActivity activity visible =>
    dsimp only at hnext
    split_ifs at hnext
    · cases hnext
    cases hnext
    exact apply_activity_marked h
  | SetLifecycle lifecycle =>
    dsimp only at hnext
    split_ifs at hnext with hsame hillegal
    · cases hnext
    cases hnext
    refine ⟨h.unread, h.read, fun harchived => ?_⟩
    exact absurd (exited_stays _ (h.archived harchived)) (by simpa using hillegal)
  | Reconcile lifecycle activity through =>
    dsimp only at hnext
    split_ifs at hnext with hillegal hsame
    · cases hnext
    cases hnext
    apply apply_activity_marked
    have hahead := le_max_right through session.last_output_sequence
    refine ⟨fun u hu => ?_, h.read.trans hahead, fun harchived => ?_⟩
    · exact ⟨(h.unread u hu).1, (h.unread u hu).2.trans hahead⟩
    have hstays := exited_stays lifecycle (h.archived harchived)
    simp [hstays] at hillegal
    exact hillegal ▸ h.archived harchived
  | Archive time =>
    dsimp only at hnext
    split_ifs at hnext with harchived hrunning
    · cases hnext
    cases hnext
    exact ⟨h.unread, h.read, fun _ => hrunning⟩
  | Restore =>
    dsimp only at hnext
    split_ifs at hnext
    · cases hnext
    cases hnext
    exact ⟨h.unread, h.read, fun harchived => absurd harchived (by simp)⟩
  | _ =>
    dsimp only at hnext
    split_ifs at hnext
    · cases hnext
    cases hnext
    exact ⟨h.unread, h.read, h.archived⟩

end

/-! ## Every run -/

def after (session : HostedSession) (mutation : SessionMutation) : HostedSession :=
  (run session mutation).2

section
variable {session : HostedSession} {mutation : SessionMutation} {error : SessionStateError}

theorem failed_run_changes_nothing (h : (run session mutation).1 = .error error) :
    after session mutation = session := by
  unfold after
  rw [run_eq] at h ⊢
  cases hreduce : reduce_session session mutation with
  | error code => rfl
  | ok next =>
    rw [hreduce] at h
    cases next <;> cases h

theorem after_marked (h : Marked session) : Marked (after session mutation) := by
  unfold after
  rw [run_eq]
  cases hreduce : reduce_session session mutation with
  | error code => exact h
  | ok next =>
    cases next with
    | none => exact h
    | some next => exact reduce_marked h hreduce

theorem run_marked (h : Marked session) (mutations : List SessionMutation) :
    Marked (mutations.foldl after session) := by
  induction mutations generalizing session with
  | nil => exact h
  | cons mutation mutations ih => exact ih (after_marked h)

end

/-! ## An activity and its output -/

/-- The session asks for attention, from `s` or earlier on. -/
def Attends (session : HostedSession) (s : OutputSequence) : Prop :=
  session.unread = true ∧ ∀ u ∈ session.unread_sequence, u ≤ s

/-- Nothing that was read is marked as unread. -/
def Fresh (session : HostedSession) : Prop :=
  ∀ u ∈ session.unread_sequence, session.read_through_sequence < u

/-- What the rules of the store say of the marks. -/
structure Bounded (session : HostedSession) : Prop where
  unread : ∀ u ∈ session.unread_sequence, u ≤ session.last_output_sequence
  read : session.read_through_sequence ≤ session.last_output_sequence
  archived : session.archived_at.isSome = true → session.lifecycle.is_exited = true

section
variable {session : HostedSession} {activity : ActivityAggregate} {s t : OutputSequence}

theorem bounded_of_valid (h : validate_session session = .ok ()) : Bounded session := by
  unfold validate_session at h
  simp only [bind_ok_iff, refuseIf_ok_iff, not_or, not_lt, not_and, not_not] at h
  obtain ⟨title, -, -, -, hread, hunread, harchived⟩ := h
  refine ⟨fun u hu => ?_, hread, harchived⟩
  rw [Option.mem_def.mp hu] at hunread
  simpa using hunread

theorem attends_iff : Attends session s ↔
    ∃ u, session.unread_sequence = some u ∧ session.read_through_sequence < u ∧ u ≤ s := by
  unfold Attends HostedSession.unread
  cases session.unread_sequence with
  | none => simp
  | some u => simp

theorem after_observe : after session (.ObserveOutput t) =
    { session with last_output_sequence := max session.last_output_sequence t } := by
  unfold after
  rw [run_eq]
  unfold reduce_session
  by_cases hbehind : t ≤ session.last_output_sequence
  · simp only [if_pos hbehind, max_eq_left hbehind]
    rfl
  · simp only [if_neg hbehind, max_eq_right (not_le.mp hbehind).le]
    rfl

theorem after_apply : after session (.ApplyActivity activity none) =
    apply_activity session activity none := by
  unfold after
  rw [run_eq]
  unfold reduce_session
  by_cases hsame : apply_activity session activity none = session
  · simp only [if_pos hsame]
    exact hsame.symm
  · simp only [if_neg hsame]
    rfl

theorem after_set : after session (.SetActivity activity) =
    if session.activity = activity then session else apply_activity session activity none := by
  unfold after
  rw [run_eq]
  unfold reduce_session
  by_cases hsame : session.activity = activity
  · simp only [if_pos hsame]
    rfl
  · simp only [if_neg hsame]
    rfl

theorem attends_observe : Attends (after session (.ObserveOutput t)) s ↔ Attends session s := by
  rw [after_observe]
  rfl

theorem attends_apply (h : Bounded session) (hstate : activity.state.requires_attention = true)
    (hattention : activity.attention_sequence = some s) (hs : session.read_through_sequence < s) :
    Attends (apply_activity session activity none) s ↔
      Fresh session ∧ session.read_through_sequence < session.last_output_sequence := by
  unfold apply_activity
  simp only [hstate, if_true, hattention, Option.map_some]
  split
  · rename_i hread
    rw [attends_iff]
    have hshown : session.read_through_sequence < session.last_output_sequence :=
      hread.trans_le (min_le_right _ _)
    unfold Fresh
    cases hunread : session.unread_sequence with
    | none =>
      simp only [Option.elim_none, Option.some.injEq, exists_eq_left', min_le_left, hread, hshown]
      simp
    | some u =>
      simp only [Option.elim_some, Option.some.injEq, exists_eq_left', hshown, and_true,
        Option.mem_some_iff, forall_eq']
      constructor
      · exact fun hu => hu.1.trans_le (min_le_left _ _)
      · exact fun hu => ⟨lt_min hu hread, (min_le_right _ _).trans (min_le_left _ _)⟩
  · rename_i hread
    have hall : session.last_output_sequence ≤ session.read_through_sequence := by
      by_contra hsome
      exact hread (lt_min hs (not_le.mp hsome))
    rw [attends_iff]
    constructor
    · rintro ⟨u, hu, hunread, -⟩
      exact absurd ((h.unread u hu).trans hall) (not_le.mpr hunread)
    · rintro ⟨-, hsome⟩
      exact absurd hall (not_le.mpr hsome)

theorem observed_bounded (h : Bounded session) : Bounded (after session (.ObserveOutput t)) := by
  rw [after_observe]
  exact ⟨fun u hu => (h.unread u hu).trans (le_max_left _ _), h.read.trans (le_max_left _ _),
    h.archived⟩

theorem fresh_observe : Fresh (after session (.ObserveOutput t)) ↔ Fresh session := by
  rw [after_observe]
  rfl

/-- After its output an activity is noticed. Before its output it is noticed where
some earlier output is not read yet. -/
theorem attends_either_way (h : Bounded session) (hstate : activity.state.requires_attention = true)
    (hattention : activity.attention_sequence = some s) (hs : session.read_through_sequence < s)
    (ht : s ≤ t) : Attends (apply_activity (after session (.ObserveOutput t)) activity none) s ∧
        Attends (after (apply_activity session activity none) (.ObserveOutput t)) s ↔
      Fresh session ∧ session.read_through_sequence < session.last_output_sequence := by
  have hread : (after session (.ObserveOutput t)).read_through_sequence =
      session.read_through_sequence := by
    rw [after_observe]
  have hshown : session.read_through_sequence <
      (after session (.ObserveOutput t)).last_output_sequence := by
    rw [after_observe]
    exact (hs.trans_le ht).trans_le (le_max_right _ _)
  have hfirst := attends_apply (observed_bounded h (t := t)) hstate hattention (hread ▸ hs)
  rw [hfirst, attends_observe, attends_apply h hstate hattention hs, fresh_observe, hread]
  tauto

end

theorem marked_of_bounded {session : HostedSession} (h : Bounded session) (hfresh : Fresh session) :
    Marked session :=
  ⟨fun u hu => ⟨hfresh u hu, h.unread u hu⟩, h.read, h.archived⟩

/-- An activity that may come before its output is noticed in both orders where the
session still has output to read, and all mutations keep the marks of a session that
marks nothing read as unread. -/
theorem attention_by_order (session : HostedSession) (hvalid : validate_session session = .ok ()) :
    (∀ (activity : ActivityAggregate) (s t : OutputSequence),
      activity.state.requires_attention = true → activity.attention_sequence = some s →
      session.read_through_sequence < s → s ≤ t →
      (Attends (after (after session (.ObserveOutput t)) (.ApplyActivity activity none)) s ∧
          Attends (after (after session (.ApplyActivity activity none)) (.ObserveOutput t)) s ↔
        Fresh session ∧ session.read_through_sequence < session.last_output_sequence) ∧
      (Attends (after (after session (.ObserveOutput t)) (.SetActivity activity)) s ∧
          Attends (after (after session (.SetActivity activity)) (.ObserveOutput t)) s ↔
        session.activity ≠ activity ∧ Fresh session ∧
            session.read_through_sequence < session.last_output_sequence ∨
          session.activity = activity ∧ Attends session s)) ∧
    ((∀ mutations : List SessionMutation, Marked (mutations.foldl after session)) ↔ Fresh session) ∧
    ∀ (mutations : List SessionMutation) (mutation : SessionMutation) (error : SessionStateError),
      (run (mutations.foldl after session) mutation).1 = .error error →
        after (mutations.foldl after session) mutation = mutations.foldl after session := by
  have hbounded := bounded_of_valid hvalid
  refine ⟨fun activity s t hstate hattention hs ht => ?_, ?_, ?_⟩
  · have hboth := attends_either_way hbounded hstate hattention hs ht
    have hactivity : (after session (.ObserveOutput t)).activity = session.activity := by
      rw [after_observe]
    rw [after_apply, after_apply, after_set, after_set, hactivity]
    refine ⟨hboth, ?_⟩
    by_cases hsame : session.activity = activity
    · rw [if_pos hsame, if_pos hsame, attends_observe]
      tauto
    · rw [if_neg hsame, if_neg hsame, hboth]
      tauto
  · constructor
    · exact fun h u hu => ((h []).unread u hu).1
    · exact fun h => run_marked (marked_of_bounded hbounded h)
  · exact fun mutations mutation error => failed_run_changes_nothing

def sampleSession (shown read : OutputSequence) : HostedSession where
  id := 7
  folder := "/home"
  group_id := none
  preset_id := none
  title := "shell".toList
  title_source := .Default
  lifecycle := .Live
  activity := ActivityAggregate.default
  pinned := false
  position := PositionKey.FIRST
  last_output_sequence := shown
  read_through_sequence := read
  unread_sequence := none
  archived_at := none
  created_at := 1
  updated_at := 1
  revision := 1

def sampleApproval (sequence : OutputSequence) : ActivityAggregate :=
  { ActivityAggregate.default with
    state := .NeedsInput
    confidence := .Verified
    source_kind := .Approval
    source_id := "approval"
    attention_reason := some .Approval
    attention_sequence := some sequence }

theorem sample_valid {shown read : OutputSequence} (h : read ≤ shown) :
    validate_session (sampleSession shown read) = .ok () := by
  have htitle : SessionTitle.new "shell".toList = .ok "shell".toList := by decide +kernel
  have hactivity : ActivityAggregate.default.is_valid = true := by decide +kernel
  unfold validate_session
  rw [show (sampleSession shown read).title = "shell".toList from rfl, htitle]
  simp [Except.mapError, bind, Except.bind, sampleSession, hactivity, h]

theorem approval_of_unread_output_is_noticed :
    Attends (after (after (sampleSession 6 4) (.ApplyActivity (sampleApproval 8) none))
      (.ObserveOutput 8)) 8 :=
  (((attention_by_order (sampleSession 6 4) (sample_valid (by decide))).1 (sampleApproval 8) 8 8
    rfl rfl (by decide) (by decide)).1.mpr ⟨by simp [Fresh, sampleSession], by decide⟩).2

/-- All that was shown is read, and an approval comes before its output. -/
theorem approval_before_its_output_is_lost :
    ¬ ∀ (session : HostedSession) (activity : ActivityAggregate) (s t : OutputSequence),
      validate_session session = .ok () → activity.state.requires_attention = true →
      activity.attention_sequence = some s → session.read_through_sequence < s → s ≤ t →
      Attends (after (after session (.ApplyActivity activity none)) (.ObserveOutput t)) s := by
  intro h
  have hattends := h (sampleSession 4 4) (sampleApproval 8) 8 8 (sample_valid le_rfl) rfl rfl
    (by decide) le_rfl
  rw [attends_observe, after_apply, attends_iff] at hattends
  obtain ⟨u, hu, -⟩ := hattends
  cases hu

end multiplex_domain.session
