-- What a session is doing, reduced from evidence that may come late, twice and
-- in any order. The newest evidence of the newest generation decides, but an
-- approval that is really asked for stays until something settles it.
import Multiplex.Lib.Latest
import Multiplex.Domain.Sessions

open Checks

namespace multiplex_domain.activity

open session

def HEURISTIC_IDLE_QUIET_NANOS : Nat := 2000000000

/-! ## Evidence -/

def priority : ActivityState → Nat
  | .Unknown => 0
  | .Idle => 1
  | .Done => 2
  | .Busy => 3
  | .NeedsInput => 4
  | .Failed => 5

def source_priority : ActivitySourceKind → Nat
  | .Unknown => 0
  | .Output => 1
  | .PromptObservation => 2
  | .ProcessObservation => 3
  | .StructuredAdapter => 4
  | .Approval => 5
  | .ProcessExit => 6

inductive ActivityEvidenceKind where
  | Output
  | PromptQuiet (quiet_nanos : Nat) (prompt_recognized alternate_screen : Bool)
  | ProcessBusy
  | StructuredIdle
  | StructuredBusy
  | ApprovalRequested (reason : AttentionReason)
  | ApprovalResolved
  | StructuredDone
  | StructuredFailed
  | ProcessExited (success output_drained : Bool)
  | ObservationLost
  deriving DecidableEq

structure ActivityEvidence where
  session_id : HostedSessionId
  generation : Nat
  host_sequence : Nat
  output_sequence : OutputSequence
  source_id : String
  source_kind : ActivitySourceKind
  confidence : ActivityConfidence
  kind : ActivityEvidenceKind
  expires_at : Option Nat

inductive ActivityError where
  | InvalidAggregate
  | InvalidSource
  | InvalidSequence
  | SessionMismatch
  deriving DecidableEq

def ActivityEvidence.validate (evidence : ActivityEvidence) : Except ActivityError Unit := do
  refuseIf .InvalidSource (¬ valid_source_id evidence.source_id)
  refuseIf .InvalidSequence (evidence.host_sequence = 0)

/-- The state that the evidence speaks for, if it speaks for one. -/
def evidence_candidate (evidence : ActivityEvidence) :
    Option (ActivityState × Option AttentionReason) :=
  match evidence.kind with
  | .Output | .ProcessBusy | .StructuredBusy => some (.Busy, none)
  | .StructuredIdle | .ApprovalResolved => some (.Idle, none)
  | .PromptQuiet quiet_nanos prompt_recognized alternate_screen =>
    if prompt_recognized ∧ ¬ alternate_screen ∧ HEURISTIC_IDLE_QUIET_NANOS ≤ quiet_nanos then
      some (.Idle, none)
    else none
  | .ApprovalRequested reason => some (.NeedsInput, some reason)
  | .StructuredDone => some (.Done, none)
  | .StructuredFailed => some (.Failed, none)
  | .ProcessExited success output_drained =>
    if output_drained then some (if success then .Done else .Failed, none) else none
  | .ObservationLost => none

/-- The order of what decides. -/
abbrev Order := Nat ×ₗ Nat ×ₗ Nat ×ₗ String

def evidence_order (evidence : ActivityEvidence) (state : ActivityState) : Order :=
  toLex (evidence.host_sequence, toLex (priority state,
    toLex (source_priority evidence.source_kind, evidence.source_id)))

def aggregate_order (aggregate : ActivityAggregate) : Order :=
  toLex (aggregate.effective_sequence, toLex (priority aggregate.state,
    toLex (source_priority aggregate.source_kind, aggregate.source_id)))

def verified_attention_locked (aggregate : ActivityAggregate) : Bool :=
  aggregate.state = .NeedsInput ∧ aggregate.confidence = .Verified

/-- What may end an approval that was really asked for. -/
def ActivityEvidenceKind.settles : ActivityEvidenceKind → Bool
  | .ApprovalResolved | .StructuredDone | .StructuredFailed => true
  | .ProcessExited _ output_drained => output_drained
  | _ => false

/-! ## The reducer -/

def fresh (generation : Nat) : ActivityAggregate :=
  { ActivityAggregate.default with generation }

/-- The aggregate that the evidence leaves where it decides. -/
def decided (evidence : ActivityEvidence) (state : ActivityState)
    (reason : Option AttentionReason) : ActivityAggregate where
  state
  confidence := evidence.confidence
  effective_sequence := evidence.host_sequence
  generation := evidence.generation
  source_kind := evidence.source_kind
  source_id := evidence.source_id
  expires_at := evidence.expires_at
  stale := false
  attention_reason := reason
  attention_sequence :=
    if state.requires_attention ∧ 0 < evidence.output_sequence then some evidence.output_sequence
    else none

def reduce_activity (session_id : HostedSessionId) (aggregate : ActivityAggregate)
    (evidence : ActivityEvidence) : Except ActivityError (ActivityAggregate × Bool) := do
  evidence.validate
  refuseIf .SessionMismatch (evidence.session_id ≠ session_id)
  if evidence.generation < aggregate.generation then return (aggregate, false)
  else
    let generation_advanced := decide (aggregate.generation < evidence.generation)
    let aggregate := if generation_advanced then fresh evidence.generation else aggregate
    match evidence_candidate evidence with
    | none =>
      if evidence.kind = .ObservationLost ∧ ¬ aggregate.stale then
        return ({ aggregate with stale := true }, true)
      else return (aggregate, generation_advanced)
    | some (state, reason) =>
      let order := evidence_order evidence state
      let current_order := aggregate_order aggregate
      if order < current_order ∨ order = current_order ∧ aggregate.state = state then
        return (aggregate, false)
      else if verified_attention_locked aggregate ∧ ¬ evidence.kind.settles then
        return (aggregate, false)
      else return (decided evidence state reason, true)

def reduced (session_id : HostedSessionId) (aggregate : ActivityAggregate)
    (evidence : ActivityEvidence) : ActivityAggregate :=
  match reduce_activity session_id aggregate evidence with
  | .ok (aggregate, _) => aggregate
  | .error _ => aggregate

def reduce_all (session_id : HostedSessionId) (aggregate : ActivityAggregate)
    (evidence : List ActivityEvidence) : ActivityAggregate :=
  evidence.foldl (reduced session_id) aggregate

/-! ## What one evidence does -/

def Usable (session_id : HostedSessionId) (evidence : ActivityEvidence) : Prop :=
  evidence.validate = .ok () ∧ evidence.session_id = session_id

instance (session_id : HostedSessionId) (evidence : ActivityEvidence) :
    Decidable (Usable session_id evidence) :=
  inferInstanceAs (Decidable (_ ∧ _))

/-- What evidence of the generation of the aggregate does to it. -/
def weighed (aggregate : ActivityAggregate) (evidence : ActivityEvidence) : ActivityAggregate :=
  match evidence_candidate evidence with
  | none =>
    if evidence.kind = .ObservationLost then { aggregate with stale := true } else aggregate
  | some (state, reason) =>
    if evidence_order evidence state < aggregate_order aggregate ∨
        evidence_order evidence state = aggregate_order aggregate ∧ aggregate.state = state ∨
        verified_attention_locked aggregate ∧ ¬ evidence.kind.settles then aggregate
    else decided evidence state reason

section
variable {session_id : HostedSessionId} {a : ActivityAggregate} {e : ActivityEvidence}
  {state : ActivityState} {reason : Option AttentionReason}

theorem validate_ok (h : e.validate = .ok ()) :
    valid_source_id e.source_id = true ∧ e.host_sequence ≠ 0 := by
  unfold ActivityEvidence.validate at h
  simpa using h

theorem reduced_unusable (h : ¬ Usable session_id e) : reduced session_id a e = a := by
  unfold reduced reduce_activity
  cases hvalid : e.validate with
  | error code => rfl
  | ok u =>
    have hother : e.session_id ≠ session_id := fun hsame => h ⟨hvalid, hsame⟩
    simp [refuseIf, hother, bind, Except.bind]

theorem weighed_eq : weighed a e =
    match evidence_candidate e with
    | none => if e.kind = .ObservationLost ∧ ¬ a.stale then { a with stale := true } else a
    | some (state, reason) =>
      if evidence_order e state < aggregate_order a ∨
          evidence_order e state = aggregate_order a ∧ a.state = state then a
      else if verified_attention_locked a ∧ ¬ e.kind.settles then a
      else decided e state reason := by
  unfold weighed
  split
  · by_cases hkind : e.kind = .ObservationLost
    · rw [if_pos hkind]
      split
      · rfl
      · rename_i hstale
        have hstale : a.stale = true := by simpa [hkind] using hstale
        rw [← hstale]
    · simp [hkind]
  · split_ifs <;> tauto

theorem reduced_eq (h : Usable session_id e) : reduced session_id a e =
    if e.generation < a.generation then a
    else weighed (if a.generation < e.generation then fresh e.generation else a) e := by
  obtain ⟨hvalid, hsession⟩ := h
  rw [weighed_eq]
  unfold reduced reduce_activity
  rw [hvalid]
  simp [bind, Except.bind, refuseIf, hsession]
  by_cases hold : e.generation < a.generation
  · rw [if_pos hold, if_pos hold]
    rfl
  · rw [if_neg hold, if_neg hold]
    cases hcandidate : evidence_candidate e with
    | none =>
      split_ifs <;> rfl
    | some candidate =>
      simp only
      split_ifs <;> rfl

end

/-! ## Every step -/

variable {b : ActivityAggregate}

section
variable {session_id : HostedSessionId} {a : ActivityAggregate} {e : ActivityEvidence}
  {state : ActivityState} {reason : Option AttentionReason}

/-- What evidence can do to an aggregate. -/
inductive Reduces (a : ActivityAggregate) (e : ActivityEvidence) : ActivityAggregate → Prop where
  | unchanged : Reduces a e a
  | advanced (newer : a.generation < e.generation) : Reduces a e (fresh e.generation)
  | lost (current : e.generation = a.generation) : Reduces a e { a with stale := true }
  | decides (state : ActivityState) (reason : Option AttentionReason)
      (source : valid_source_id e.source_id = true)
      (candidate : evidence_candidate e = some (state, reason))
      (fenced : a.generation ≤ e.generation)
      (order : a.generation = e.generation → a.effective_sequence ≤ e.host_sequence)
      (unlocked : a.generation = e.generation → verified_attention_locked a = true →
        e.kind.settles = true) : Reduces a e (decided e state reason)

/-- Evidence that is not behind in the order is not behind in the numbers of the Host. -/
theorem le_of_order (h : ¬ evidence_order e state < aggregate_order a) :
    a.effective_sequence ≤ e.host_sequence := by
  by_contra hlt
  apply h
  unfold evidence_order aggregate_order
  rw [Prod.Lex.toLex_lt_toLex]
  exact .inl (not_le.mp hlt)

theorem reduces_weighed (husable : Usable session_id e)
    (hb : b = a ∧ e.generation = a.generation ∨
      b = fresh e.generation ∧ a.generation < e.generation) : Reduces a e (weighed b e) := by
  have hkeep : Reduces a e b := by
    rcases hb with ⟨rfl, -⟩ | ⟨rfl, hnewer⟩
    · exact .unchanged
    · exact .advanced hnewer
  have hstale : Reduces a e { b with stale := true } := by
    rcases hb with ⟨rfl, hcurrent⟩ | ⟨rfl, hnewer⟩
    · exact .lost hcurrent
    · exact .advanced hnewer
  unfold weighed
  split
  · split
    · exact hstale
    · exact hkeep
  · rename_i state reason hcandidate
    split
    · exact hkeep
    · rename_i hdecides
      simp only [not_or, not_and, not_not] at hdecides
      obtain ⟨horder, -, hlocked⟩ := hdecides
      refine .decides state reason (validate_ok husable.1).1 hcandidate ?_ ?_ ?_
      · rcases hb with ⟨-, hcurrent⟩ | ⟨-, hnewer⟩
        · exact hcurrent.ge
        · exact hnewer.le
      · rcases hb with ⟨rfl, -⟩ | ⟨-, hnewer⟩
        · exact fun _ => le_of_order horder
        · exact fun hcurrent => absurd hcurrent hnewer.ne
      · rcases hb with ⟨rfl, -⟩ | ⟨-, hnewer⟩
        · exact fun _ => hlocked
        · exact fun hcurrent => absurd hcurrent hnewer.ne

theorem reduced_cases (session_id : HostedSessionId) (a : ActivityAggregate)
    (e : ActivityEvidence) : Reduces a e (reduced session_id a e) := by
  by_cases husable : Usable session_id e
  · rw [reduced_eq husable]
    split
    · exact .unchanged
    · rename_i hfenced
      apply reduces_weighed husable
      split
      · rename_i hnewer
        exact .inr ⟨rfl, hnewer⟩
      · rename_i hcurrent
        exact .inl ⟨rfl, le_antisymm (not_lt.mp hcurrent) (not_lt.mp hfenced)⟩
  · rw [reduced_unusable husable]
    exact .unchanged

/-! ### What a step keeps -/

theorem Reduces.generation (h : Reduces a e b) :
    a.generation ≤ b.generation := by
  cases h with
  | unchanged => exact le_rfl
  | advanced newer => exact newer.le
  | lost current => exact le_rfl
  | decides state reason source candidate fenced order unlocked => exact fenced

theorem Reduces.effective (h : Reduces a e b)
    (hsame : a.generation = b.generation) : a.effective_sequence ≤ b.effective_sequence := by
  cases h with
  | unchanged => exact le_rfl
  | advanced newer => exact absurd hsame newer.ne
  | lost current => exact le_rfl
  | decides state reason source candidate fenced order unlocked => exact order hsame

theorem is_valid_iff : a.is_valid = true ↔ a.generation ≠ 0 ∧ valid_source_id a.source_id = true ∧
    (a.state.requires_attention = true ∨ a.attention_sequence = none) ∧
    (a.state = .NeedsInput ∨ a.attention_reason = none) := by
  unfold ActivityAggregate.is_valid
  simp

theorem candidate_reason (h : evidence_candidate e = some (state, reason)) :
    state = .NeedsInput ∨ reason = none := by
  unfold evidence_candidate at h
  split at h <;> simp at h <;> grind

theorem unknown_source : valid_source_id "unknown" = true := by
  decide +kernel

theorem fresh_valid {generation : Nat} (h : generation ≠ 0) :
    (fresh generation).is_valid = true := by
  rw [is_valid_iff]
  exact ⟨h, unknown_source, .inr rfl, .inr rfl⟩

theorem Reduces.valid (h : Reduces a e b) (ha : a.is_valid = true) :
    b.is_valid = true := by
  obtain ⟨hgeneration, hsource, hattention, hreason⟩ := is_valid_iff.mp ha
  cases h with
  | unchanged => exact ha
  | advanced newer => exact fresh_valid (Nat.ne_zero_of_lt newer)
  | lost current => exact is_valid_iff.mpr ⟨hgeneration, hsource, hattention, hreason⟩
  | decides state reason source candidate fenced order unlocked =>
    rw [is_valid_iff]
    refine ⟨?_, source, ?_, candidate_reason candidate⟩
    · change e.generation ≠ 0
      omega
    · unfold decided
      cases hstate : state.requires_attention <;> simp

theorem Reduces.locked (h : Reduces a e b)
    (ha : verified_attention_locked a = true) :
    verified_attention_locked b = true ∨ e.kind.settles = true ∨ a.generation < e.generation := by
  cases h with
  | unchanged => exact .inl ha
  | advanced newer => exact .inr (.inr newer)
  | lost current => exact .inl ha
  | decides state reason source candidate fenced order unlocked =>
    rcases fenced.lt_or_eq with hnewer | hcurrent
    · exact .inr (.inr hnewer)
    · exact .inr (.inl (unlocked hcurrent ha))

end

/-! ## Every run -/

section
variable {session_id : HostedSessionId}

theorem reduce_all_append (a : ActivityAggregate) (before after : List ActivityEvidence) :
    reduce_all session_id a (before ++ after) =
      reduce_all session_id (reduce_all session_id a before) after :=
  List.foldl_append

section
variable (a : ActivityAggregate) (l : List ActivityEvidence)

theorem reduce_all_generation : a.generation ≤ (reduce_all session_id a l).generation := by
  induction l generalizing a with
  | nil => exact le_rfl
  | cons e l ih => exact (reduced_cases session_id a e).generation.trans (ih _)

theorem reduce_all_effective (h : a.generation = (reduce_all session_id a l).generation) :
    a.effective_sequence ≤ (reduce_all session_id a l).effective_sequence := by
  induction l generalizing a with
  | nil => exact le_rfl
  | cons e l ih =>
    have hstep := reduced_cases session_id a e
    have hrest : (reduced session_id a e).generation ≤
        (reduce_all session_id a (e :: l)).generation :=
      reduce_all_generation (reduced session_id a e) l
    have hfirst : a.generation = (reduced session_id a e).generation := by
      have hle := hstep.generation
      omega
    apply (hstep.effective hfirst).trans
    apply ih
    exact hfirst.symm.trans h

end

theorem reduce_all_valid {a : ActivityAggregate} (ha : a.is_valid = true)
    (l : List ActivityEvidence) : (reduce_all session_id a l).is_valid = true := by
  induction l generalizing a with
  | nil => exact ha
  | cons e l ih => exact ih ((reduced_cases session_id a e).valid ha)

end

/-! ## The same evidence again -/

section
variable {session_id : HostedSessionId} {a b : ActivityAggregate} {e : ActivityEvidence}
  {changed : Bool}

theorem decided_order (e : ActivityEvidence) (state : ActivityState)
    (reason : Option AttentionReason) :
    aggregate_order (decided e state reason) = evidence_order e state := rfl

theorem weighed_twice : weighed (weighed a e) e = weighed a e := by
  unfold weighed
  cases hcandidate : evidence_candidate e with
  | none =>
    simp only
    split <;> rfl
  | some candidate =>
    obtain ⟨state, reason⟩ := candidate
    simp only
    split
    · rfl
    · -- what was decided stands at the place of the evidence in the order
      apply if_pos
      exact .inr (.inl ⟨(decided_order e state reason).symm, rfl⟩)

theorem weighed_generation (h : a.generation = e.generation) :
    (weighed a e).generation = e.generation := by
  unfold weighed
  split
  · split <;> exact h
  · split
    · exact h
    · rfl

theorem reduced_twice : reduced session_id (reduced session_id a e) e = reduced session_id a e := by
  by_cases husable : Usable session_id e
  · rw [reduced_eq husable (a := a)]
    split
    · rename_i hold
      rw [reduced_eq husable, if_pos hold]
    · rename_i hfenced
      have hsame : (if a.generation < e.generation then fresh e.generation else a).generation =
          e.generation := by
        split
        · rfl
        · rename_i hcurrent
          exact le_antisymm (not_lt.mp hfenced) (not_lt.mp hcurrent)
      have hgeneration := weighed_generation hsame
      rw [reduced_eq husable, if_neg hgeneration.not_gt, if_neg hgeneration.not_lt, weighed_twice]
  · rw [reduced_unusable husable]

theorem reported_same (h : reduce_activity session_id a e = .ok (b, changed)) (hsame : b = a) :
    changed = false := by
  unfold reduce_activity at h
  cases hvalid : e.validate with
  | error code =>
    rw [hvalid] at h
    cases h
  | ok u =>
    rw [hvalid] at h
    by_cases hsession : e.session_id = session_id
    · simp only [hsession, ne_eq, not_true_eq_false, decide_eq_true_eq, pure, Except.pure] at h
      have hgeneration : b.generation = a.generation := congrArg _ hsame
      by_contra hchanged
      split at h
      · cases h
        exact hchanged rfl
      · split at h
        · split_ifs at h with hnewer hlost hlost
          · cases h
            exact hnewer.ne' hgeneration
          · cases h
            exact hnewer.ne' hgeneration
          · cases h
            exact hlost.2 (congrArg ActivityAggregate.stale hsame).symm
          · cases h
            simp [hnewer] at hchanged
        · rename_i state reason hcandidate
          split_ifs at h with hnewer hkept hlocked hkept hlocked
          · cases h
            exact hchanged rfl
          · cases h
            exact hchanged rfl
          · cases h
            exact hnewer.ne' hgeneration
          · cases h
            exact hchanged rfl
          · cases h
            exact hchanged rfl
          · cases h
            apply hkept
            rw [← hsame]
            exact .inr ⟨(decided_order e state reason).symm, rfl⟩
    · simp [hsession] at h

end

/-! ## Evidence in any order -/

/-- Verified approvals lock, and a lost observation only marks what is there. -/
def ActivityEvidence.plain (e : ActivityEvidence) : Bool :=
  match e.kind with
  | .ApprovalRequested _ => e.confidence ≠ .Verified
  | .ObservationLost => false
  | _ => true

/-- What the evidence would leave if nothing newer were there. -/
def proposal (e : ActivityEvidence) : ActivityAggregate :=
  match evidence_candidate e with
  | none => fresh e.generation
  | some (state, reason) => decided e state reason

def newest (a : ActivityAggregate) : Nat ×ₗ Nat :=
  toLex (a.generation, a.effective_sequence)

section
variable {session_id : HostedSessionId} {a : ActivityAggregate} {e e' : ActivityEvidence}

theorem newest_lt {a b : ActivityAggregate} : newest a < newest b ↔ a.generation < b.generation ∨
      a.generation = b.generation ∧ a.effective_sequence < b.effective_sequence := by
  unfold newest
  rw [Prod.Lex.toLex_lt_toLex]

theorem newest_eq {a b : ActivityAggregate} : newest a = newest b ↔
    a.generation = b.generation ∧ a.effective_sequence = b.effective_sequence := by
  unfold newest
  rw [toLex_inj, Prod.mk.injEq]

theorem proposal_generation : (proposal e).generation = e.generation := by
  unfold proposal
  split <;> rfl

theorem plain_unlocked (h : e.plain = true) : verified_attention_locked (proposal e) = false := by
  unfold proposal verified_attention_locked
  cases hcandidate : evidence_candidate e with
  | none => rfl
  | some candidate =>
    unfold ActivityEvidence.plain at h
    unfold evidence_candidate at hcandidate
    simp only [decided]
    cases hkind : e.kind <;> simp_all <;> grind

/-- In its generation, plain evidence decides where its number is the larger one. -/
theorem weighed_plain (hplain : e.plain = true)
    (hlocked : verified_attention_locked a = false) (hsame : a.generation = e.generation)
    (htie : newest a = newest (proposal e) → a = proposal e) :
    weighed a e = Latest.keep newest a (proposal e) := by
  unfold Latest.keep weighed
  cases hcandidate : evidence_candidate e with
  | none =>
    have hkind : e.kind ≠ .ObservationLost := by
      intro hkind
      simp [ActivityEvidence.plain, hkind] at hplain
    have hnewest : ¬ newest a < newest (proposal e) := by
      rw [newest_lt, proposal_generation]
      simp [proposal, hcandidate, fresh, ActivityAggregate.default, hsame]
    simp only [if_neg hkind, if_neg hnewest]
  | some candidate =>
    obtain ⟨state, reason⟩ := candidate
    have hproposal : proposal e = decided e state reason := by
      unfold proposal
      rw [hcandidate]
    rw [hproposal] at htie ⊢
    simp [hlocked]
    have hnewest : newest a < newest (decided e state reason) ↔
        a.effective_sequence < e.host_sequence := by
      rw [newest_lt]
      simp [decided, hsame]
    by_cases hlt : a.effective_sequence < e.host_sequence
    · rw [if_pos (hnewest.mpr hlt), if_neg]
      rintro (hbehind | ⟨hequal, -⟩)
      · unfold evidence_order aggregate_order at hbehind
        rw [Prod.Lex.toLex_lt_toLex] at hbehind
        omega
      · unfold evidence_order aggregate_order at hequal
        rw [toLex_inj, Prod.mk.injEq] at hequal
        omega
    · rw [if_neg (fun h => hlt (hnewest.mp h)), if_pos]
      rcases (not_lt.mp hlt).lt_or_eq with hbehind | htied
      · left
        unfold evidence_order aggregate_order
        rw [Prod.Lex.toLex_lt_toLex]
        exact .inl hbehind
      · right
        have ha : a = decided e state reason := by
          apply htie
          rw [newest_eq]
          exact ⟨hsame, htied.symm⟩
        rw [ha]
        exact ⟨(decided_order e state reason).symm, rfl⟩

theorem reduced_plain (husable : Usable session_id e) (hplain : e.plain = true)
    (hlocked : verified_attention_locked a = false)
    (htie : newest a = newest (proposal e) → a = proposal e) :
    reduced session_id a e = Latest.keep newest a (proposal e) := by
  rw [reduced_eq husable]
  rcases lt_trichotomy a.generation e.generation with hnewer | hsame | hold
  · rw [if_neg hnewer.not_gt, if_pos hnewer]
    have hnewest : newest a < newest (proposal e) := by
      rw [newest_lt, proposal_generation]
      exact .inl hnewer
    have hfresh : newest (fresh e.generation) = newest (proposal e) →
        fresh e.generation = proposal e := by
      intro htied
      have hsequence : (proposal e).effective_sequence = 0 := (newest_eq.mp htied).2.symm
      unfold proposal at hsequence ⊢
      cases hcandidate : evidence_candidate e with
      | none => rfl
      | some candidate =>
        rw [hcandidate] at hsequence
        exact absurd hsequence (validate_ok husable.1).2
    rw [weighed_plain hplain rfl rfl hfresh]
    unfold Latest.keep
    split
    · rfl
    · rename_i hbehind
      apply hfresh
      have hzero : (proposal e).effective_sequence = 0 := by
        by_contra hpos
        apply hbehind
        rw [newest_lt, proposal_generation]
        exact .inr ⟨rfl, Nat.pos_of_ne_zero hpos⟩
      rw [newest_eq, proposal_generation, hzero]
      exact ⟨rfl, rfl⟩
  · rw [if_neg hsame.not_gt, if_neg hsame.not_lt]
    exact weighed_plain hplain hlocked hsame htie
  · have hnewest : ¬ newest a < newest (proposal e) := by
      rw [newest_lt, proposal_generation]
      omega
    unfold Latest.keep
    rw [if_pos hold, if_neg hnewest]

/-- The aggregates that a run from the default one can be at. -/
def Seen (l : List ActivityEvidence) (a : ActivityAggregate) : Prop :=
  a ∈ fresh 1 :: l.map proposal

variable {l : List ActivityEvidence}

theorem seen_unlocked (h : Seen l a) (hplain : ∀ e ∈ l, e.plain = true) :
    verified_attention_locked a = false := by
  rcases List.mem_cons.mp h with rfl | hmem
  · rfl
  · obtain ⟨e, he, rfl⟩ := List.mem_map.mp hmem
    exact plain_unlocked (hplain e he)

theorem seen_eq (husable : ∀ e ∈ l, Usable session_id e)
    (hnumbers : ∀ e ∈ l, ∀ e' ∈ l, e.generation = e'.generation →
      e.host_sequence = e'.host_sequence → e = e') (ha : Seen l a) (hb : Seen l b)
    (h : newest a = newest b) : a = b := by
  have hform : ∀ c, Seen l c → c = fresh c.generation ∨
      ∃ e ∈ l, c = proposal e ∧ c.generation = e.generation ∧
        c.effective_sequence = e.host_sequence := by
    intro c hc
    rcases List.mem_cons.mp hc with rfl | hmem
    · exact .inl rfl
    · obtain ⟨e, he, rfl⟩ := List.mem_map.mp hmem
      cases hcandidate : evidence_candidate e with
      | none =>
        left
        rw [proposal_generation]
        simp only [proposal, hcandidate]
      | some candidate =>
        refine .inr ⟨e, he, rfl, proposal_generation, ?_⟩
        simp only [proposal, hcandidate, decided]
  obtain ⟨hgeneration, hsequence⟩ := newest_eq.mp h
  rcases hform a ha with hfresh | ⟨e, he, hproposal, hg, hs⟩
  · rcases hform b hb with hfresh' | ⟨e', he', -, -, hs'⟩
    · rw [hfresh, hfresh', hgeneration]
    · have hzero : a.effective_sequence = 0 := by
        rw [hfresh]
        rfl
      exact absurd (hs'.symm.trans (hsequence.symm.trans hzero)) (validate_ok (husable e' he').1).2
  · rcases hform b hb with hfresh' | ⟨e', he', hproposal', hg', hs'⟩
    · have hzero : b.effective_sequence = 0 := by
        rw [hfresh']
        rfl
      exact absurd (hs.symm.trans (hsequence.trans hzero)) (validate_ok (husable e he).1).2
    · have hsame := hnumbers e he e' he' (hg.symm.trans (hgeneration.trans hg'))
        (hs.symm.trans (hsequence.trans hs'))
      rw [hproposal, hproposal', hsame]

theorem reduce_all_newest (husable : ∀ e ∈ l, Usable session_id e)
    (hplain : ∀ e ∈ l, e.plain = true) (hnumbers : ∀ e ∈ l, ∀ e' ∈ l, e.generation = e'.generation →
      e.host_sequence = e'.host_sequence → e = e') (l' : List ActivityEvidence)
    (hl' : ∀ e ∈ l', e ∈ l) (ha : Seen l a) :
    reduce_all session_id a l' = (l'.map proposal).foldl (Latest.keep newest) a := by
  induction l' generalizing a with
  | nil => rfl
  | cons e l' ih =>
    have he : e ∈ l := hl' e List.mem_cons_self
    have hproposal : Seen l (proposal e) := List.mem_cons_of_mem _ (List.mem_map_of_mem he)
    have hstep : reduced session_id a e = Latest.keep newest a (proposal e) := by
      apply reduced_plain (husable e he) (hplain e he) (seen_unlocked ha hplain)
      exact seen_eq husable hnumbers ha hproposal
    have hkept : Seen l (Latest.keep newest a (proposal e)) := by
      unfold Latest.keep
      split
      · exact hproposal
      · exact ha
    unfold reduce_all
    rw [List.foldl_cons, List.map_cons, List.foldl_cons, hstep]
    exact ih (fun e' he' => hl' e' (List.mem_cons_of_mem _ he')) hkept

theorem reduce_all_usable (a : ActivityAggregate) (l : List ActivityEvidence) :
    reduce_all session_id a l =
      reduce_all session_id a (l.filter fun e => Usable session_id e) := by
  induction l generalizing a with
  | nil => rfl
  | cons e l ih =>
    by_cases husable : Usable session_id e
    · rw [List.filter_cons_of_pos (by simpa using husable)]
      exact ih _
    · rw [List.filter_cons_of_neg (by simpa using husable), ← ih a]
      unfold reduce_all
      rw [List.foldl_cons, reduced_unusable husable]

theorem reduce_all_same {l' : List ActivityEvidence} (hsame : ∀ e, e ∈ l' ↔ e ∈ l)
    (hplain : ∀ e ∈ l, e.plain = true)
    (hnumbers : (l.map fun e => (e.generation, e.host_sequence)).Nodup) :
    reduce_all session_id ActivityAggregate.default l' =
      reduce_all session_id ActivityAggregate.default l := by
  let usable := l.filter fun e => Usable session_id e
  have husable : ∀ e ∈ usable, Usable session_id e := by
    intro e he
    simpa using (List.mem_filter.mp he).2
  have hplain' : ∀ e ∈ usable, e.plain = true := fun e he => hplain e (List.mem_filter.mp he).1
  have hnumbers' : ∀ e ∈ usable, ∀ e' ∈ usable, e.generation = e'.generation →
      e.host_sequence = e'.host_sequence → e = e' := by
    intro e he e' he' hg hs
    apply List.inj_on_of_nodup_map hnumbers (List.mem_filter.mp he).1 (List.mem_filter.mp he').1
    exact Prod.ext hg hs
  have hmem : ∀ e, e ∈ (l'.filter fun e => Usable session_id e) ↔ e ∈ usable := by
    intro e
    rw [List.mem_filter, List.mem_filter, hsame]
  have hdefault : Seen usable ActivityAggregate.default := List.mem_cons_self
  rw [reduce_all_usable _ l', reduce_all_usable _ l,
    reduce_all_newest husable hplain' hnumbers' _ (fun e he => (hmem e).mp he) hdefault,
    reduce_all_newest husable hplain' hnumbers' usable (fun e he => he) hdefault]
  symm
  apply Latest.foldl_keep_eq
  · intro b
    rw [List.mem_map, List.mem_map]
    simp only [hmem]
  · intro b hb c hc
    exact seen_eq husable hnumbers' hb hc

end

/-! ## What the reduction promises -/

/-- In its generation nothing goes back, and an approval that was really asked for
is left only by what settles it. Where no such approval is asked for and no
observation is lost, only the set of the evidence counts. -/
theorem activity_keeps_the_newest (session_id : HostedSessionId) (a : ActivityAggregate)
    (ha : a.is_valid = true) (l : List ActivityEvidence) :
    (reduce_all session_id a l).is_valid = true ∧ (∀ after, (reduce_all session_id a l).generation ≤
        (reduce_all session_id a (l ++ after)).generation ∧
      ((reduce_all session_id a l).generation = (reduce_all session_id a (l ++ after)).generation →
        (reduce_all session_id a l).effective_sequence ≤
          (reduce_all session_id a (l ++ after)).effective_sequence)) ∧
    (∀ e, e.generation < (reduce_all session_id a l).generation →
      reduce_all session_id a (l ++ [e]) = reduce_all session_id a l) ∧
    (∀ e, reduce_all session_id a (l ++ [e, e]) = reduce_all session_id a (l ++ [e]) ∧
      ∀ b changed, reduce_activity session_id (reduce_all session_id a (l ++ [e])) e =
        .ok (b, changed) → changed = false) ∧
    (∀ e, (reduce_all session_id a l).state = .NeedsInput ∧
        (reduce_all session_id a l).confidence = .Verified →
      (reduce_all session_id a (l ++ [e])).state = .NeedsInput ∧
          (reduce_all session_id a (l ++ [e])).confidence = .Verified ∨
        e.kind = .ApprovalResolved ∨ e.kind = .StructuredDone ∨ e.kind = .StructuredFailed ∨
        (∃ success, e.kind = .ProcessExited success true) ∨
        (reduce_all session_id a l).generation < e.generation) ∧
    ((∀ e ∈ l, e.plain = true) → (l.map fun e => (e.generation, e.host_sequence)).Nodup →
      ∀ l', (∀ e, e ∈ l' ↔ e ∈ l) → reduce_all session_id ActivityAggregate.default l' =
        reduce_all session_id ActivityAggregate.default l) := by
  have hsnoc : ∀ e, reduce_all session_id a (l ++ [e]) =
      reduced session_id (reduce_all session_id a l) e := fun e => reduce_all_append a l [e]
  have htwice : ∀ e, reduce_all session_id a (l ++ [e, e]) =
      reduce_all session_id a (l ++ [e]) := by
    intro e
    rw [reduce_all_append, hsnoc]
    exact reduced_twice
  refine ⟨reduce_all_valid ha l, ?_, ?_, ?_, ?_, ?_⟩
  · intro after
    rw [reduce_all_append a l after]
    exact ⟨reduce_all_generation _ after, reduce_all_effective _ after⟩
  · intro e hold
    rw [hsnoc]
    by_cases husable : Usable session_id e
    · rw [reduced_eq husable, if_pos hold]
    · exact reduced_unusable husable
  · intro e
    refine ⟨htwice e, fun b changed hagain => reported_same hagain ?_⟩
    have hb : reduced session_id (reduce_all session_id a (l ++ [e])) e = b := by
      unfold reduced
      rw [hagain]
    rw [← hb, hsnoc]
    exact reduced_twice
  · intro e hlocked
    rw [hsnoc]
    have hstep := reduced_cases session_id (reduce_all session_id a l) e
    rcases hstep.locked (by simpa [verified_attention_locked] using hlocked) with
      hstill | hsettles | hnewer
    · left
      simpa [verified_attention_locked] using hstill
    · right
      unfold ActivityEvidenceKind.settles at hsettles
      cases hkind : e.kind <;> simp_all
    · exact .inr (Or.inr (Or.inr (Or.inr (Or.inr hnewer))))
  · intro hplain hnumbers l' hsame
    exact reduce_all_same hsame hplain hnumbers

def lateBusy : List ActivityEvidence :=
  [⟨7, 1, 3, 10, "exit", .ProcessExit, .Verified, .ProcessExited true true, none⟩,
    ⟨7, 1, 2, 8, "output", .Output, .Estimated, .Output, none⟩]

theorem late_busy_changes_nothing : reduce_all 7 ActivityAggregate.default lateBusy.reverse =
      reduce_all 7 ActivityAggregate.default lateBusy := by
  refine (activity_keeps_the_newest 7 ActivityAggregate.default ?_ lateBusy).2.2.2.2.2 ?_ ?_ _ ?_
  · exact fresh_valid Nat.one_ne_zero
  · decide
  · decide
  · exact fun e => List.mem_reverse

end multiplex_domain.activity
