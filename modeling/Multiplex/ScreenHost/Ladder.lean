-- What a session gives up to fit the link. A rung holds for a while before another is taken, one at a
-- time, so the picture does not go to and fro.
import Multiplex.Lib.Runs

namespace multiplex_screen_host.ladder

def DWELL_MS : UInt64 := 1500
def CROWDED : Float := 0.95
def ROOMY : Float := 0.60

/-- How much has been given up, worst last. -/
inductive Rung
  | Full
  | NoRefinement
  | ViewportOnly
  | SlowerFrames
  | LowerQuality
  | CappedVideo
  deriving DecidableEq

namespace Rung

def ORDER : List Rung :=
  [.Full, .NoRefinement, .ViewportOnly, .SlowerFrames, .LowerQuality, .CappedVideo]

def down (rung : Rung) : Rung := ORDER.getD (min (ORDER.idxOf rung + 1) (ORDER.length - 1)) .Full

def up (rung : Rung) : Rung := ORDER.getD (ORDER.idxOf rung - 1) .Full

/-- The rungs next to each other. -/
def Beside (a b : Rung) : Prop :=
  ORDER.idxOf b = ORDER.idxOf a + 1 ∨ ORDER.idxOf a = ORDER.idxOf b + 1

theorem down_beside {rung : Rung} (h : rung.down ≠ rung) : rung.Beside rung.down := by
  cases rung <;> revert h <;> unfold Beside <;> decide

theorem up_beside {rung : Rung} (h : rung.up ≠ rung) : rung.Beside rung.up := by
  cases rung <;> revert h <;> unfold Beside <;> decide

end Rung

structure Ladder where
  rung : Rung
  since_ms : UInt64
  sent : UInt64
  window_start_ms : UInt64

namespace Ladder

def new : Ladder := ⟨.Full, 0, 0, 0⟩

/-- `saturating_sub`. -/
def since (now_ms then_ms : UInt64) : UInt64 := if then_ms ≤ now_ms then now_ms - then_ms else 0

def add_sent (ladder : Ladder) (bytes : UInt64) : Ladder :=
  { ladder with sent := if ladder.sent ≤ ladder.sent + bytes then ladder.sent + bytes else -1 }

/-- Where the ladder goes, with `demand` in bytes a second. -/
def next (ladder : Ladder) (demand : UInt64) (estimate : Option UInt64) (backlogged : Bool) : Rung :=
  match estimate.filter (0 < ·) with
  | some estimate =>
    let share := demand.toFloat / estimate.toFloat
    if share > CROWDED then ladder.rung.down
    else if share < ROOMY then ladder.rung.up
    else ladder.rung
  | none => if backlogged then ladder.rung.down else ladder.rung.up

def consider (ladder : Ladder) (now_ms : UInt64) (estimate : Option UInt64) (backlogged : Bool) :
    Ladder :=
  let elapsed := since now_ms ladder.window_start_ms
  if elapsed < DWELL_MS then ladder
  else
    let demand := ladder.sent * 1000 / max elapsed 1
    let opened := { ladder with sent := 0, window_start_ms := now_ms }
    if since now_ms ladder.since_ms < DWELL_MS then opened
    else
      let next := ladder.next demand estimate backlogged
      if next ≠ ladder.rung then { opened with rung := next, since_ms := now_ms } else opened

end Ladder

/-! ## Whole sessions -/

inductive Event where
  | sent (bytes : UInt64)
  | consider (now_ms : UInt64) (estimate : Option UInt64) (backlogged : Bool)
  | reset

/-- The ladder, and the changes of its rung since it was reset, with their times. -/
structure World where
  standing : Ladder
  changes : List (UInt64 × Rung × Rung)

def World.start : World := ⟨.new, []⟩

def World.step (w : World) : Event → World
  | .sent bytes => { w with standing := w.standing.add_sent bytes }
  | .consider now_ms estimate backlogged =>
    let ladder := w.standing.consider now_ms estimate backlogged
    ⟨ladder, if ladder.rung = w.standing.rung then w.changes
      else w.changes ++ [(now_ms, w.standing.rung, ladder.rung)]⟩
  | .reset => .start

/-- Changes of one rung each, and each a dwell at least after the one before. -/
structure World.Settled (w : World) : Prop where
  apart : w.changes.Pairwise fun a b => a.1.toNat + DWELL_MS.toNat ≤ b.1.toNat
  single : ∀ change ∈ w.changes, change.2.1.Beside change.2.2
  last : ∀ change ∈ w.changes, change.1 ≤ w.standing.since_ms

theorem next_beside {ladder : Ladder} {demand : UInt64} {estimate : Option UInt64}
    {backlogged : Bool} (h : ladder.next demand estimate backlogged ≠ ladder.rung) :
    ladder.rung.Beside (ladder.next demand estimate backlogged) := by
  have hcases : ladder.next demand estimate backlogged = ladder.rung.down ∨
      ladder.next demand estimate backlogged = ladder.rung.up ∨
      ladder.next demand estimate backlogged = ladder.rung := by
    unfold Ladder.next
    split
    · simp only
      split_ifs <;> simp
    · split_ifs <;> simp
  rcases hcases with hdown | hup | hsame
  · rw [hdown] at h ⊢
    exact Rung.down_beside h
  · rw [hup] at h ⊢
    exact Rung.up_beside h
  · exact absurd hsame h

theorem settled_consider {w : World} (h : w.Settled) (now_ms : UInt64) (estimate : Option UInt64)
    (backlogged : Bool) : (w.step (.consider now_ms estimate backlogged)).Settled := by
  simp only [World.step, Ladder.consider]
  generalize w.standing.sent * 1000 / max (Ladder.since now_ms w.standing.window_start_ms) 1 = demand
  by_cases hwindow : Ladder.since now_ms w.standing.window_start_ms < DWELL_MS
  · simpa [hwindow] using ⟨h.apart, h.single, h.last⟩
  by_cases hdwell : Ladder.since now_ms w.standing.since_ms < DWELL_MS
  · simpa [hwindow, hdwell] using ⟨h.apart, h.single, h.last⟩
  by_cases hnext : w.standing.next demand estimate backlogged = w.standing.rung
  · simpa [hwindow, hdwell, hnext] using ⟨h.apart, h.single, h.last⟩
  have hlater : w.standing.since_ms.toNat + DWELL_MS.toNat ≤ now_ms.toNat := by
    unfold Ladder.since at hdwell
    split at hdwell
    · rename_i hle
      rw [UInt64.not_lt, UInt64.le_iff_toNat_le, UInt64.toNat_sub_of_le _ _ hle] at hdwell
      rw [UInt64.le_iff_toNat_le] at hle
      omega
    · exact absurd (by decide) hdwell
  simp only [hwindow, hdwell, hnext, if_false, ne_eq, not_false_eq_true, if_true]
  refine ⟨?_, ?_, ?_⟩
  · refine List.pairwise_append.mpr ⟨h.apart, List.pairwise_singleton _ _, ?_⟩
    intro change hchange other hother
    have hlast := UInt64.le_iff_toNat_le.mp (h.last change hchange)
    rw [List.mem_singleton.mp hother]
    show change.1.toNat + DWELL_MS.toNat ≤ now_ms.toNat
    omega
  · intro change hchange
    rcases List.mem_append.mp hchange with hold | hnew
    · exact h.single change hold
    · rw [List.mem_singleton.mp hnew]
      exact next_beside hnext
  · intro change hchange
    show change.1 ≤ now_ms
    rcases List.mem_append.mp hchange with hold | hnew
    · have hlast := UInt64.le_iff_toNat_le.mp (h.last change hold)
      exact UInt64.le_iff_toNat_le.mpr (by omega)
    · exact List.mem_singleton.mp hnew ▸ UInt64.le_refl _

/-- Whatever is sent and measured, and whatever the clock reads, the rung changes by one at a time and
not again before a dwell is over. -/
theorem the_ladder_does_not_thrash (events : List Event) :
    (Runs.run World.step .start events).Settled := by
  have hstart : World.start.Settled := ⟨.nil, by simp [World.start], by simp [World.start]⟩
  refine Runs.keeps_always World.Settled ?_ hstart events
  intro w event h
  cases event with
  | sent bytes => exact ⟨h.apart, h.single, h.last⟩
  | consider now_ms estimate backlogged => exact settled_consider h now_ms estimate backlogged
  | reset => exact hstart

end multiplex_screen_host.ladder
