-- The size of the screen model and that of the terminal. A resize request gives
-- the terminal its size under the lock of the cache, and only if the command is
-- new. The screen gets the size later, without that lock, whatever became of the
-- command.
import Multiplex.SessionHost.RequestLaws

open multiplex_host_protocol (WireEnvelope Viewport)
open multiplex_store.journal (castagnoli)

namespace multiplex_session_host.requests

section
variable {crc32c : List UInt8 → UInt32} {decode : WireEnvelope → Option Message}

/-- A resize to this size has yet to reach the screen. -/
def World.UnderWay (w : World) (size : PtySize) : Prop := ∃ c, w.phases c = .Resized size

/-- The screen has the size of the terminal, or is about to get it. -/
def World.Sized (w : World) : Prop :=
  w.state.parser = w.state.master ∨ w.UnderWay w.state.master

/-! ## When the terminal takes another size -/

/-- The request is a new resize command to another size, and no call fails. -/
structure TakesSize (decode : WireEnvelope → Option Message) (crc32c : List UInt8 → UInt32)
    (w : World) (envelope : WireEnvelope) (o : Calls) (size : PtySize) : Prop where
  message : ∃ command_id viewport,
    decode envelope = some (.ResizeRequest w.state.session_id command_id viewport) ∧
    requestedSize viewport = some size ∧ validCommand command_id envelope.request_id.val = true ∧
    (w.state.idempotency.inspect command_id (crc32c envelope.payload) o.inspected).1 = .Apply
  accepted : o.accepts = true
  calls : o.gets_size = true ∧ o.resizes = true
  other : w.state.master ≠ size

variable {s : RuntimeState} {o : Calls} {h : Handled} {now : Seen}

/-- The step does not part the screen from the terminal: a resize reaches the screen while the
terminal still has that size, or while another one to the terminal's size is under way; and where
the answer of a resize that the terminal took is lost, the screen has that size or gets it. -/
def World.Orderly (decode : WireEnvelope → Option Message) (crc32c : List UInt8 → UInt32)
    (w : World) : Event → Prop
  | .Screen c => ∀ size, w.phases c = .Resized size → size = w.state.master ∨
      ∃ c', c' ≠ c ∧ w.phases c' = .Resized w.state.master
  | .Request _ envelope _ o => ∀ size, TakesSize decode crc32c w envelope o size →
      o.sends = false → w.state.parser = size ∨ w.UnderWay size
  | _ => True

inductive OrderlyRun (decode : WireEnvelope → Option Message) (crc32c : List UInt8 → UInt32) :
    World → World → Prop
  | nil {w : World} : OrderlyRun decode crc32c w w
  | snoc {w w' w'' : World} {e : Event} {now : Seen} : OrderlyRun decode crc32c w w' →
      w'.step decode crc32c e = some (w'', now) → w'.Orderly decode crc32c e →
      OrderlyRun decode crc32c w w''

/-- A step that leaves both sizes alone, of a connection that has no screen to size. -/
theorem World.Sized.go {w w' : World} (h : w.Sized) {c : Nat} {phase : Phase}
    (hphases : w'.phases = (w.go c phase).phases) (hc : ∀ size, w.phases c ≠ .Resized size)
    (hmaster : w'.state.master = w.state.master) (hparser : w'.state.parser = w.state.parser) :
    w'.Sized := by
  unfold World.Sized World.UnderWay at h ⊢
  rw [hmaster, hparser]
  rcases h with heq | ⟨c', hc'⟩
  · exact .inl heq
  · right
    refine ⟨c', ?_⟩
    have hne : c' ≠ c := by
      rintro rfl
      exact hc _ hc'
    rw [hphases, phases_go_ne _ _ hne, hc']

end

def resizes (c : Nat) (envelope : WireEnvelope) : List Event :=
  [.Request c envelope 65536 .fine, .Screen c]

variable {events : List Event}

end multiplex_session_host.requests
