-- The queue of frames that wait for a connection. What it takes comes out once and in order, and it
-- never holds more than its budget allows.
import Multiplex.ControllerListener.RateLimit
import Multiplex.ControllerListener.Serving

open multiplex_controller_listener.rate_limit multiplex_controller_listener.runtime

namespace multiplex_controller_listener.queue

abbrev QueuedFrame := QueueClass × List UInt8

structure BoundedFrameQueue where
  frames : List QueuedFrame
  payload_bytes : Nat
  budget : ConnectionBudget

namespace BoundedFrameQueue

def frame_limit (queue : BoundedFrameQueue) : QueueClass → Nat
  | .Control => queue.budget.max_control_frame_bytes
  | .Terminal => queue.budget.max_terminal_frame_bytes

def push (queue : BoundedFrameQueue) (frame : QueuedFrame) : Listened Unit × BoundedFrameQueue :=
  let new_payload_bytes := queue.payload_bytes + frame.2.length
  if queue.frame_limit frame.1 < frame.2.length then (.error (.new .FrameTooLarge), queue)
  else if 2 ^ 64 ≤ new_payload_bytes ∨ queue.budget.max_queue_frames ≤ queue.frames.length ∨
      queue.budget.max_queue_payload_bytes < new_payload_bytes then
    (.error (.new .QueueFull), queue)
  else (.ok (), ⟨queue.frames ++ [frame], new_payload_bytes, queue.budget⟩)

def pop (queue : BoundedFrameQueue) : Option QueuedFrame × BoundedFrameQueue :=
  match queue.frames with
  | [] => (none, queue)
  | frame :: frames => (some frame, ⟨frames, queue.payload_bytes - frame.2.length, queue.budget⟩)

end BoundedFrameQueue

/-! ## Whole connections -/

inductive Event where
  | push (frame : QueuedFrame)
  | pop

/-- The queue, the frames it accepted, and those that were taken out of it. -/
structure World where
  waiting : BoundedFrameQueue
  accepted : List QueuedFrame
  taken : List QueuedFrame

def World.step (w : World) : Event → World
  | .push frame =>
    match w.waiting.push frame with
    | (.error _, waiting) => { w with waiting }
    | (.ok (), waiting) => { w with waiting, accepted := w.accepted ++ [frame] }
  | .pop => { w with waiting := w.waiting.pop.2, taken := w.taken ++ w.waiting.pop.1.toList }

structure World.Bounded (budget : ConnectionBudget) (w : World) : Prop where
  same_budget : w.waiting.budget = budget
  order : w.taken ++ w.waiting.frames = w.accepted
  counted : w.waiting.payload_bytes = (w.waiting.frames.map (·.2.length)).sum
  frames : w.waiting.frames.length ≤ budget.max_queue_frames
  payload : w.waiting.payload_bytes ≤ budget.max_queue_payload_bytes
  each : ∀ frame ∈ w.accepted, frame.2.length ≤ w.waiting.frame_limit frame.1

variable {budget : ConnectionBudget} {w : World}

theorem bounded_push (h : w.Bounded budget) (frame : QueuedFrame) :
    (w.step (.push frame)).Bounded budget := by
  obtain ⟨rfl, order, counted, frames, payload, each⟩ := h
  simp only [World.step, BoundedFrameQueue.push]
  by_cases hlarge : w.waiting.frame_limit frame.1 < frame.2.length
  · rw [if_pos hlarge]
    exact ⟨rfl, order, counted, frames, payload, each⟩
  rw [if_neg hlarge]
  split_ifs with hfull
  · exact ⟨rfl, order, counted, frames, payload, each⟩
  simp only [not_or, not_le, not_lt] at hfull hlarge
  refine ⟨rfl, ?_, ?_, ?_, hfull.2.2, ?_⟩
  · show w.taken ++ (w.waiting.frames ++ [frame]) = w.accepted ++ [frame]
    rw [← List.append_assoc, order]
  · simp [counted]
  · simpa using hfull.2.1
  · intro other hother
    rcases List.mem_append.mp hother with hold | hnew
    · exact each other hold
    · exact List.mem_singleton.mp hnew ▸ hlarge

theorem bounded_pop (h : w.Bounded budget) : (w.step .pop).Bounded budget := by
  obtain ⟨rfl, order, counted, frames, payload, each⟩ := h
  simp only [World.step, BoundedFrameQueue.pop]
  cases hframes : w.waiting.frames with
  | nil => exact ⟨rfl, by simpa using order, counted, frames, payload, each⟩
  | cons frame rest =>
    simp [hframes] at order counted frames
    refine ⟨rfl, ?_, ?_, ?_, ?_, each⟩
    · simp [order]
    · simp [counted]
    · exact (Nat.le_succ _).trans frames
    · exact (Nat.sub_le _ _).trans payload

/-- Whatever is pushed and taken, in any order, the frames that were accepted come out once and in
their order, and those that wait stay within the budget. -/
theorem frames_come_out_once (budget : ConnectionBudget) (events : List Event) :
    (Runs.run World.step ⟨⟨[], 0, budget⟩, [], []⟩ events).Bounded budget := by
  refine Runs.keeps_always (World.Bounded budget) ?_ ⟨rfl, rfl, rfl, Nat.zero_le _, Nat.zero_le _,
    fun _ h => absurd h List.not_mem_nil⟩ events
  intro w event h
  cases event with
  | push frame => exact bounded_push h frame
  | pop => exact bounded_pop h

end multiplex_controller_listener.queue
