-- The arithmetic of a repair, with every sum and product checked. Sequences and
-- groups are whatever the peer wrote, so a step fits in 64 bits exactly when the
-- gaps and the group it looks at stay far enough below the end of the range.
import Multiplex.Lib.Runs
import Multiplex.ScreenProtocol.Format
import Multiplex.ScreenSession.NewestGroup

namespace multiplex_screen_session

open multiplex_screen_protocol multiplex_screen_host

/-! ## A build that checks its arithmetic -/

/-- What a sum or a product of two `u64` is in a build that checks it: nothing when it does not
fit. -/
def checked64 (n : Nat) : Option Nat := if n < 2 ^ 64 then some n else none

theorem checked64_of_lt {n : Nat} (h : n < 2 ^ 64) : checked64 n = some n := if_pos h

theorem checked64_of_not_lt {n : Nat} (h : ¬n < 2 ^ 64) : checked64 n = none := if_neg h

theorem wrap64_of_lt {n : Nat} (h : n < 2 ^ 64) : wrap64 n = n := Nat.mod_eq_of_lt h

def Surface.checked_patience (s : Surface) : Option Nat :=
  checked64 ((if s.group = 0 then ASSUMED_GROUP else s.group) * GAP_PATIENCE_GROUPS)

def Surface.checked_aged (s : Surface) (patience gap : Nat) : Option (Nat × Bool) := do
  let last ← checked64 (gap + patience)
  return (gap, decide (s.highest > last))

def Surface.checked_age_gaps (s : Surface) (repaired : Repaired) : Option (Surface × Repaired) := do
  let patience ← s.checked_patience
  let gaps ← s.gaps.mapM (s.checked_aged patience)
  return ({ s with gaps := (gaps.filter fun gap => !gap.2).map Prod.fst },
    { repaired with lost := repaired.lost ++ (gaps.filter Prod.snd).map Prod.fst })

def Surface.checked_notice_gaps (s : Surface) (sequence : Nat) : Option Surface :=
  if sequence > s.highest then do
    let first ← checked64 (s.highest + 1)
    return { s with
      gaps := (List.range' first (sequence - first)).foldl push_gap s.gaps
      highest := sequence }
  else some s

def checked_group_sequences (group shards : Nat) : Option (List Nat) := do
  let before ← checked64 (group * shards)
  let first ← checked64 (before + 1)
  let last ← checked64 (first + shards)
  return List.range' first (last - first)

/-! ## Closing a group, once its sequences are known -/

def Surface.missing (s : Surface) (sequences : List Nat) : Nat :=
  sequences.countP fun sequence => !s.frames.contains sequence

/-- What the loop over the rebuilt frames goes through, when something is missing and it can be
rebuilt. -/
def Surface.rebuilt (s : Surface) (shards : Nat) (held : List (Nat × Shard))
    (sequences : List Nat) : Option (List (Nat × Option VideoFrame)) :=
  if s.missing sequences = 0 ∨ s.missing sequences > held.length then none
  else
    let length := (held.headD (0, [])).2.length
    let data := sequences.map fun sequence => (s.frames.get? sequence).map fun bytes =>
      (pack_shard bytes length).toOption.getD []
    if (data.filterMap id).any fun shard => decide (shard.length ≠ length) then none
    else
      match Fec.new shards (max held.length 1) with
      | .error _ => none
      | .ok fec =>
        match fec.rebuild data held with
        | (_, .error _) => none
        | (data, .ok ()) =>
          let missing := (sequences.zip data).filter fun d => !s.frames.contains d.1
          some (missing.map fun d => (d.1, d.2.bind (accept_shard s.expected_surface d.1)))

def Surface.close_group (s : Surface) (group shards : Nat) (held : List (Nat × Shard))
    (sequences : List Nat) (repaired : Repaired) : Surface × Repaired :=
  if s.missing sequences = 0 then (s.forget group, repaired)
  else
    match s.rebuilt shards held sequences with
    | none => (s, repaired)
    | some rebuilt =>
      let (s, repaired) := rebuilt.foldl write_rebuilt (s, repaired)
      (s.forget group, repaired)

theorem close_eq_close_group (s : Surface) (group : Nat) (repaired : Repaired) :
    s.close group repaired =
      match s.shape.get? group, s.parity.get? group with
      | some shards, some held =>
        s.close_group group shards held (group_sequences group shards) repaired
      | _, _ => (s, repaired) := by
  unfold Surface.close Surface.close_group Surface.rebuilt Surface.missing
  cases s.shape.get? group with
  | none => simp
  | some shards =>
    cases s.parity.get? group with
    | none => simp
    | some held =>
      simp only
      by_cases hnone : (group_sequences group shards).countP
          (fun sequence => !s.frames.contains sequence) = 0
      · rw [if_pos hnone, if_pos hnone]
      simp [hnone]
      split
      · simp
      split
      · simp
      cases Fec.new shards (max held.length 1) with
      | error e => simp
      | ok fec =>
        simp only
        generalize fec.rebuild _ held = out
        rcases out with ⟨data, refused | done⟩ <;> simp

def Surface.checked_close (s : Surface) (group : Nat) (repaired : Repaired) :
    Option (Surface × Repaired) :=
  match s.shape.get? group, s.parity.get? group with
  | some shards, some held => do
    let sequences ← checked_group_sequences group shards
    return s.close_group group shards held sequences repaired
  | _, _ => some (s, repaired)

/-! ## Frames, parity and all surfaces -/

def Surface.checked_frame (s : Surface) (frame : VideoFrame) (encoded : List UInt8) :
    Option (Surface × Repaired) := do
  let sequence := frame.sequence.toNat
  let s ← s.checked_notice_gaps sequence
  let s := s.drop_gap sequence
  let s := { s with frames := (s.frames.insert sequence encoded).keepLast REMEMBERED_FRAMES }
  s.checked_age_gaps ⟨frame.surface, [], []⟩

def Surface.checked_record_parity (s : Surface) (parity : Parity) : Option (Surface × Repaired) := do
  let (s, repaired) ←
    (s.keep_shard parity).checked_close parity.group.toNat ⟨parity.surface, [], []⟩
  s.checked_age_gaps repaired

def VideoRepair.checked_frame (r : VideoRepair) (frame : VideoFrame) :
    Option (VideoRepair × Repaired) :=
  match frame.encode with
  | .error _ => some (r, .default)
  | .ok encoded => do
    let (r, s) := r.surface frame.surface
    let (s, repaired) ← s.checked_frame frame encoded
    return (r.store frame.surface s, repaired)

def VideoRepair.checked_parity (r : VideoRepair) (parity : Parity) :
    Option (VideoRepair × Repaired) :=
  if parity.data_shards = 0 ∨ parity.payload.isEmpty then some (r, .default)
  else do
    let (r, s) := r.surface parity.surface
    let (s, repaired) ← s.checked_record_parity parity
    return (r.store parity.surface s, repaired)

/-- A surface's stream starts again. -/
def VideoRepair.restart (r : VideoRepair) (surface : UInt32) : VideoRepair :=
  ⟨r.surfaces.erase surface.toNat⟩

/-- What a message of an agreed stream does to the repair. -/
def VideoRepair.receive (r : VideoRepair) : Message → VideoRepair × Repaired
  | .VideoConfig config => (r.restart config.surface, .default)
  | .VideoFrame frame => r.frame frame
  | .Parity parity => r.parity parity
  | _ => (r, .default)

def VideoRepair.checked_receive (r : VideoRepair) : Message → Option (VideoRepair × Repaired)
  | .VideoFrame frame => r.checked_frame frame
  | .Parity parity => r.checked_parity parity
  | message => some (r.receive message)

/-! ## What fits -/

/-- The frames that a gap may stay behind, in a surface whose groups are of a size. -/
def framesBehind (group : Nat) : Nat :=
  (if group = 0 then ASSUMED_GROUP else group) * GAP_PATIENCE_GROUPS

def gapFits (group gap : Nat) : Bool := decide (gap + framesBehind group < 2 ^ 64)

/-- The old gaps other than the frame itself fit, and so does the last gap before it. -/
def Surface.fitsFrame (s : Surface) (sequence : Nat) : Bool :=
  (s.gaps.all fun gap => gap == sequence || gapFits s.group gap) &&
    (decide (sequence ≤ s.highest + 1) || gapFits s.group (sequence - 1))

/-- The missing frames of a group that closes, rebuilt or reported. -/
def Surface.settled (s : Surface) (group shards : Nat) : List Nat :=
  match s.parity.get? group with
  | none => []
  | some held => ((s.rebuilt shards held (List.range' (group * shards + 1) shards)).getD []).map Prod.fst

/-- The sequences of the group fit, unless the shard was not kept, and so do the gaps that the
group leaves open. -/
def Surface.fitsParity (s : Surface) (parity : Parity) : Bool :=
  let group := parity.group.toNat
  let shards := parity.data_shards.toNat
  let s := s.keep_shard parity
  (!s.parity.contains group || decide (group * shards + 1 + shards < 2 ^ 64)) &&
    s.gaps.all fun gap => (s.settled group shards).contains gap || gapFits shards gap

def VideoRepair.fits (r : VideoRepair) : Message → Bool
  | .VideoFrame frame =>
    match frame.encode with
    | .error _ => true
    | .ok _ => (r.surface frame.surface).2.fitsFrame frame.sequence.toNat
  | .Parity parity =>
    decide (parity.data_shards = 0 ∨ parity.payload.isEmpty) ||
      (r.surface parity.surface).2.fitsParity parity
  | _ => true

/-! ## Gaps -/

/-- A step that answers only where a test holds answers for a list where it holds for all. -/
theorem mapM_ite {α β : Type} (p : α → Bool) (f : α → β) (l : List α) :
    (l.mapM fun a => if p a then some (f a) else none) = if l.all p then some (l.map f) else none := by
  induction l with
  | nil => simp
  | cons a l ih =>
    rw [List.mapM_cons, ih]
    by_cases ha : p a <;> by_cases hl : l.all p <;> simp [ha, hl]

theorem framesBehind_lt {group : Nat} (h : group < 256) : framesBehind group < 2 ^ 64 := by
  unfold framesBehind ASSUMED_GROUP GAP_PATIENCE_GROUPS
  split <;> omega

variable {s : Surface} {r : VideoRepair}

theorem patience_eq (h : s.group < 256) : s.patience = framesBehind s.group :=
  wrap64_of_lt (framesBehind_lt h)

theorem checked_patience_eq (h : s.group < 256) :
    s.checked_patience = some (framesBehind s.group) := checked64_of_lt (framesBehind_lt h)

theorem checked_aged_eq (h : s.group < 256) (gap : Nat) :
    s.checked_aged (framesBehind s.group) gap =
      if gapFits s.group gap then some (gap, s.aged gap) else none := by
  unfold Surface.checked_aged
  by_cases hfits : gap + framesBehind s.group < 2 ^ 64
  · simp only [checked64_of_lt hfits, gapFits, hfits, Surface.aged, patience_eq h, wrap64_of_lt hfits]
    simp
  · simp only [checked64_of_not_lt hfits, gapFits, hfits]
    simp

theorem checked_age_gaps_eq (s : Surface) (hgroup : s.group < 256) (repaired : Repaired) :
    s.checked_age_gaps repaired =
      if s.gaps.all (gapFits s.group) then some (s.age_gaps repaired) else none := by
  simp only [Surface.checked_age_gaps, checked_patience_eq hgroup, Option.bind_eq_bind,
    Option.bind_some]
  rw [funext (checked_aged_eq hgroup), mapM_ite]
  split
  · simp [Surface.age_gaps, List.filter_map, Function.comp_def]
  · simp

theorem checked_notice_gaps_eq (s : Surface) {sequence : Nat} (h : sequence < 2 ^ 64) :
    s.checked_notice_gaps sequence = some (s.notice_gaps sequence) := by
  unfold Surface.checked_notice_gaps Surface.notice_gaps
  split
  · have hfits : s.highest + 1 < 2 ^ 64 := by omega
    rw [checked64_of_lt hfits]
    simp
  · simp

/-! ## Groups -/

theorem group_sequences_fit {group shards : Nat} (h : group * shards + 1 + shards < 2 ^ 64) :
    group_sequences group shards = List.range' (group * shards + 1) shards := by
  have hbefore : group * shards < 2 ^ 64 := by omega
  have hfirst : group * shards + 1 < 2 ^ 64 := by omega
  simp only [group_sequences, wrap64_of_lt hbefore, wrap64_of_lt hfirst, wrap64_of_lt h]
  congr 1
  omega

theorem checked_group_sequences_eq (group shards : Nat) : checked_group_sequences group shards =
      if group * shards + 1 + shards < 2 ^ 64 then some (group_sequences group shards) else none := by
  unfold checked_group_sequences
  by_cases hfits : group * shards + 1 + shards < 2 ^ 64
  · have hbefore : group * shards < 2 ^ 64 := by omega
    have hfirst : group * shards + 1 < 2 ^ 64 := by omega
    rw [if_pos hfits, group_sequences_fit hfits]
    simp only [checked64_of_lt hbefore, checked64_of_lt hfirst, checked64_of_lt hfits,
      Option.bind_eq_bind, Option.bind_some]
    simp
  rw [if_neg hfits]
  by_cases hbefore : group * shards < 2 ^ 64
  · simp [checked64_of_lt hbefore]
    by_cases hfirst : group * shards + 1 < 2 ^ 64
    · simp [checked64_of_lt hfirst, checked64_of_not_lt hfits]
    · simp [checked64_of_not_lt hfirst]
  · simp [checked64_of_not_lt hbefore]

theorem foldl_write_rebuilt_gaps (rebuilt : List (Nat × Option VideoFrame)) (s : Surface)
    (repaired : Repaired) : (rebuilt.foldl write_rebuilt (s, repaired)).1.gaps =
        s.gaps.filter (fun gap => !(rebuilt.map Prod.fst).contains gap) ∧
      (rebuilt.foldl write_rebuilt (s, repaired)).1.group = s.group := by
  induction rebuilt generalizing s repaired with
  | nil => simp
  | cons r rebuilt ih =>
    have hone : (write_rebuilt (s, repaired) r).1.gaps = s.gaps.filter (fun gap => decide (gap ≠ r.1)) ∧
        (write_rebuilt (s, repaired) r).1.group = s.group := by
      unfold write_rebuilt
      split <;> simp [Surface.drop_gap]
    obtain ⟨hgaps, hgroup⟩ := ih (write_rebuilt (s, repaired) r).1 (write_rebuilt (s, repaired) r).2
    rw [List.foldl_cons]
    refine ⟨?_, hgroup.trans hone.2⟩
    rw [hgaps, hone.1, List.filter_filter]
    apply List.filter_congr
    intro gap _
    by_cases heq : gap = r.1 <;> simp [heq]

theorem close_group_gaps (s : Surface) (group shards : Nat) (held : List (Nat × Shard))
    (sequences : List Nat) (repaired : Repaired) :
    (s.close_group group shards held sequences repaired).1.gaps =
        s.gaps.filter (fun gap =>
          !(((s.rebuilt shards held sequences).getD []).map Prod.fst).contains gap) ∧
      (s.close_group group shards held sequences repaired).1.group = s.group := by
  unfold Surface.close_group
  split
  · rename_i hnone
    simp [Surface.rebuilt, hnone, Surface.forget]
  cases s.rebuilt shards held sequences with
  | none => simp
  | some rebuilt =>
    obtain ⟨hgaps, hgroup⟩ := foldl_write_rebuilt_gaps rebuilt s repaired
    exact ⟨hgaps, hgroup⟩

/-! ## One message on its surface -/

theorem noticed_gaps_fit (s : Surface) (sequence : Nat) :
    ((s.notice_gaps sequence).drop_gap sequence).gaps.all (gapFits s.group) =
      s.fitsFrame sequence := by
  have hnew : (∀ gap, s.highest < gap ∧ gap < sequence → gapFits s.group gap = true) ↔
      sequence ≤ s.highest + 1 ∨ gapFits s.group (sequence - 1) = true := by
    constructor
    · intro hall
      by_cases hnext : sequence ≤ s.highest + 1
      · exact .inl hnext
      · exact .inr (hall (sequence - 1) (by omega))
    · rintro (hnext | hlast) gap hgap
      · omega
      · simp [gapFits] at hlast ⊢
        omega
  rw [Bool.eq_iff_iff, List.all_eq_true]
  simp only [Surface.drop_gap, List.mem_filter, mem_notice_gaps, decide_eq_true_eq]
  simp only [Surface.fitsFrame, Bool.and_eq_true, List.all_eq_true, Bool.or_eq_true, beq_iff_eq,
    decide_eq_true_eq, ← hnew]
  constructor
  · intro hall
    refine ⟨fun gap hgap => ?_, fun gap hgap => hall gap ⟨.inr hgap, by omega⟩⟩
    by_cases heq : gap = sequence
    · exact .inl heq
    · exact .inr (hall gap ⟨.inl hgap, heq⟩)
  · rintro ⟨hold, hnew⟩ gap ⟨hgap | hgap, hne⟩
    · exact (hold gap hgap).resolve_left hne
    · exact hnew gap hgap

theorem checked_frame_eq (s : Surface) (hgroup : s.group < 256) (frame : VideoFrame)
    (encoded : List UInt8) : s.checked_frame frame encoded =
      if s.fitsFrame frame.sequence.toNat then some (s.frame frame encoded) else none := by
  have hlt : frame.sequence.toNat < 2 ^ 64 := frame.sequence.toNat_lt
  have hkept : ((s.notice_gaps frame.sequence.toNat).drop_gap frame.sequence.toNat).group < 256 := by
    simpa [Surface.drop_gap] using hgroup
  have hfits := noticed_gaps_fit s frame.sequence.toNat
  rw [← notice_gaps_group s frame.sequence.toNat] at hfits
  simp [Surface.checked_frame, checked_notice_gaps_eq s hlt]
  rw [checked_age_gaps_eq _ (by exact hkept), ← hfits]
  rfl

theorem closed_gaps_fit (s : Surface) (group shards : Nat) (held : List (Nat × Shard))
    (repaired : Repaired) (hheld : s.parity.get? group = some held)
    (hfits : group * shards + 1 + shards < 2 ^ 64) :
    (s.close_group group shards held (group_sequences group shards) repaired).1.gaps.all
        (gapFits shards) =
      s.gaps.all fun gap => (s.settled group shards).contains gap || gapFits shards gap := by
  rw [(close_group_gaps s group shards held _ repaired).1, List.all_filter]
  simp only [Surface.settled, hheld, group_sequences_fit hfits, Bool.not_not]

theorem checked_record_parity_eq (s : Surface) (parity : Parity) : s.checked_record_parity parity =
      if s.fitsParity parity then some (s.record_parity parity) else none := by
  have hshards : parity.data_shards.toNat < 256 := parity.data_shards.toNat_lt
  have hgroup : (s.keep_shard parity).group = parity.data_shards.toNat := by
    simp [Surface.keep_shard, Surface.drop_groups]
  unfold Surface.checked_record_parity Surface.record_parity Surface.fitsParity Surface.checked_close
  rw [close_eq_close_group]
  cases hheld : (s.keep_shard parity).parity.get? parity.group.toNat with
  | none =>
    -- the shard was not kept, and its group stays as it is
    have hgaps : (s.keep_shard parity).gaps.all (gapFits (s.keep_shard parity).group) =
        (s.keep_shard parity).gaps.all fun gap =>
          ((s.keep_shard parity).settled parity.group.toNat parity.data_shards.toNat).contains gap ||
            gapFits parity.data_shards.toNat gap := by
      simp [Surface.settled, hheld, hgroup]
    simp only [SortedMap.contains, hheld, Option.isSome_none, Bool.not_false, Bool.true_or,
      Bool.true_and, ← hgaps]
    cases (s.keep_shard parity).shape.get? parity.group.toNat <;>
      exact checked_age_gaps_eq _ (by rw [hgroup]; exact hshards) _
  | some held =>
    simp only [keep_shard_shape s parity hheld, checked_group_sequences_eq, SortedMap.contains, hheld,
      Option.isSome_some, Bool.not_true, Bool.false_or]
    by_cases hfits : parity.group.toNat * parity.data_shards.toNat + 1 + parity.data_shards.toNat < 2 ^ 64
    · have hkept := (close_group_gaps (s.keep_shard parity) parity.group.toNat
        parity.data_shards.toNat held
        (group_sequences parity.group.toNat parity.data_shards.toNat) ⟨parity.surface, [], []⟩).2
      rw [hgroup] at hkept
      simp only [hfits, if_true, decide_true, Bool.true_and, Option.bind_eq_bind, Option.bind_some,
        Option.pure_def]
      rw [checked_age_gaps_eq _ (by rw [hkept]; exact hshards), hkept,
        closed_gaps_fit _ _ _ _ _ hheld hfits]
    · simp only [hfits, if_false, decide_false, Bool.false_and, Bool.false_eq_true,
        Option.bind_eq_bind, Option.bind_none]

/-! ## Every run -/

/-- No surface believes in groups beyond what a byte can say. -/
def GroupsAreBytes (r : VideoRepair) : Prop := ∀ e ∈ r.surfaces.entries, e.2.group < 256

theorem surface_group_lt (h : GroupsAreBytes r) (id : UInt32) :
    (r.surface id).2.group < 256 ∧ GroupsAreBytes (r.surface id).1 := by
  have hkept : GroupsAreBytes (r.surface id).1 := by
    intro e he
    simp only [VideoRepair.surface] at he
    split at he
    · exact h e (SortedMap.mem_of_mem_keepLast he)
    · exact h e he
  refine ⟨?_, hkept⟩
  change (((r.surface id).1.surfaces.get? id.toNat).getD .default).group < 256
  cases hget : (r.surface id).1.surfaces.get? id.toNat with
  | none => simp [Surface.default]
  | some s => exact hkept _ (SortedMap.get?_eq_some_iff.mp hget)

theorem store_groups (h : GroupsAreBytes r) (id : UInt32) (hs : s.group < 256) :
    GroupsAreBytes (r.store id s) := by
  intro e he
  rcases SortedMap.mem_insert.mp he with rfl | ⟨hold, -⟩
  · exact hs
  · exact h e hold

theorem record_parity_group (s : Surface) (parity : Parity) :
    (s.record_parity parity).1.group = parity.data_shards.toNat := by
  have hgroup : (s.keep_shard parity).group = parity.data_shards.toNat := by
    simp [Surface.keep_shard, Surface.drop_groups]
  simp only [Surface.record_parity, Surface.age_gaps, close_eq_close_group]
  split
  · rw [(close_group_gaps _ _ _ _ _ _).2, hgroup]
  · exact hgroup

theorem receive_groups (h : GroupsAreBytes r) (message : Message) :
    GroupsAreBytes (r.receive message).1 := by
  unfold VideoRepair.receive
  split
  · exact fun e he => h e (SortedMap.mem_erase.mp he).1
  · rename_i frame
    obtain ⟨hgroup, hkept⟩ := surface_group_lt h frame.surface
    unfold VideoRepair.frame
    split
    · exact h
    · apply store_groups hkept
      rw [(frame_gaps (r.surface frame.surface).2 frame _).2.1]
      exact hgroup
  · rename_i parity
    unfold VideoRepair.parity
    split
    · exact h
    · apply store_groups (surface_group_lt h parity.surface).2
      rw [record_parity_group]
      exact parity.data_shards.toNat_lt
  · exact h

theorem checked_receive_eq (h : GroupsAreBytes r) (message : Message) :
    r.checked_receive message = if r.fits message then some (r.receive message) else none := by
  cases message with
  | VideoFrame frame =>
    cases hencode : frame.encode with
    | error e =>
      simp [VideoRepair.checked_receive, VideoRepair.checked_frame, VideoRepair.fits,
        VideoRepair.receive, VideoRepair.frame, hencode]
    | ok encoded =>
      simp only [VideoRepair.checked_receive, VideoRepair.checked_frame, VideoRepair.fits,
        VideoRepair.receive, VideoRepair.frame, hencode,
        checked_frame_eq _ (surface_group_lt h frame.surface).1]
      split <;> simp
  | Parity parity =>
    simp only [VideoRepair.checked_receive, VideoRepair.checked_parity, VideoRepair.fits,
      VideoRepair.receive, VideoRepair.parity]
    split
    · rename_i hempty
      simp only [hempty, decide_true, Bool.true_or, if_true]
    · rename_i hfull
      simp only [checked_record_parity_eq, hfull, decide_false, Bool.false_or]
      split <;> simp
  | _ => simp [VideoRepair.checked_receive, VideoRepair.fits]

/-- The state after all of the messages, in a build that wraps. -/
def received (messages : List Message) : VideoRepair :=
  Runs.run (fun r message => (r.receive message).1) .default messages

theorem default_groups : GroupsAreBytes .default := by
  intro e he
  simp [VideoRepair.default, SortedMap.empty] at he

theorem received_groups (messages : List Message) : GroupsAreBytes (received messages) :=
  Runs.keeps_always GroupsAreBytes (fun _ message h => receive_groups h message) default_groups
    messages

/-- The state after all of the messages, in a build that checks. -/
def checked_received (messages : List Message) : Option VideoRepair :=
  messages.foldlM (fun r message => (r.checked_receive message).map Prod.fst) .default

theorem checked_run_eq (messages : List Message) (h : GroupsAreBytes r) :
    messages.foldlM (fun r message => (r.checked_receive message).map Prod.fst) r =
      if Runs.steps (fun r message => (r.receive message).1) VideoRepair.fits r messages then
        some (Runs.run (fun r message => (r.receive message).1) r messages)
      else none := by
  induction messages generalizing r with
  | nil => simp [Runs.steps]
  | cons message messages ih =>
    rw [List.foldlM_cons, checked_receive_eq h]
    by_cases hfits : r.fits message = true
    · simp [hfits, Runs.steps, ih (receive_groups h message)]
    · simp [hfits, Runs.steps]

/-- A message is handled without a sum or a product that does not fit exactly when the gaps and
the group it looks at fit, in every state that messages lead to; and a run is handled so exactly
when each of its messages is. -/
theorem repair_arithmetic_fits_iff (messages : List Message) :
    (∀ message, (received messages).checked_receive message =
        some ((received messages).receive message) ↔ (received messages).fits message = true) ∧
    (checked_received messages = some (received messages) ↔
      Runs.steps (fun r message => (r.receive message).1) VideoRepair.fits .default messages
        = true) := by
  constructor
  · intro message
    rw [checked_receive_eq (received_groups messages)]
    split <;> simp_all
  · unfold checked_received received
    rw [checked_run_eq messages default_groups]
    split <;> simp_all

/-- A shard for the last group there can be, as its 20 bytes say it. -/
def farShard : List UInt8 :=
  [0x26, 0, 0, 0, 1, 255, 255, 255, 255, 255, 255, 255, 255, 0, 2, 0, 0, 0, 1, 7]

/-- It decodes, and the first product of a viewer that has seen nothing does not fit. -/
theorem a_far_group_overflows :
    Message.decode farShard = .ok (.Parity ⟨1, 18446744073709551615, 0, 2, [7]⟩) ∧
      (received []).checked_receive (.Parity ⟨1, 18446744073709551615, 0, 2, [7]⟩) = none := by
  constructor
  · decide +kernel
  · apply Option.isNone_iff_eq_none.mp
    decide +kernel

end multiplex_screen_session
