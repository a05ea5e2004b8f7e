-- Length-prefixed frames over an ordered byte stream, as `framing.rs` has
-- them: one message as a frame, and a reader that takes the stream in any
-- chunks and gives the messages back.
import Multiplex.Lib.Chunks
import Multiplex.ScreenProtocol.Canonical

open Bytes multiplex_screen_codec

namespace multiplex_screen_protocol

/-- The largest control frame: every message except a batch. -/
def MAX_CONTROL_FRAME_BYTES : Nat := 64 * 1024
/-- The largest frame of any kind: a batch and its kind byte. -/
def MAX_FRAME_BYTES : Nat := MAX_BATCH_BYTES + 1

/-! ## Frames -/

def Message.frame_limit (m : Message) : Nat :=
  if m.is_batch then MAX_FRAME_BYTES else MAX_CONTROL_FRAME_BYTES

def encode_frame (message : Message) : Except ProtocolError (List UInt8) := do
  let body ← message.encode
  if body.length > message.frame_limit then throw .FrameTooLarge
  return beBytes 4 body.length ++ body

def check_length (length : Nat) (kind : Option UInt8) : Except ProtocolError Unit :=
  if length = 0 then .error .Malformed
  else
    let limit := match kind with
      | some kind => if !Message.kind_is_batch kind then MAX_CONTROL_FRAME_BYTES else MAX_FRAME_BYTES
      | none => MAX_FRAME_BYTES
    if length > limit then .error .FrameTooLarge else .ok ()

/-- One message off the front of the buffer, and the buffer without it. -/
def read_frame (buffer : List UInt8) : Except ProtocolError (Option (Message × List UInt8)) :=
  match buffer with
  | a :: b :: c :: d :: kind :: rest => do
    let length := beNat [a, b, c, d]
    check_length length (some kind)
    if buffer.length < 4 + length then return none
    let message ← Message.decode ((kind :: rest).take length)
    return some (message, (kind :: rest).drop length)
  -- a length above the largest frame is rejected as soon as its four bytes arrive
  | [a, b, c, d] => do
    check_length (beNat [a, b, c, d]) none
    return none
  | _ => .ok none

/-! ## The reader -/

structure FrameReader where
  buffer : List UInt8
  failed : Bool

def FrameReader.new : FrameReader := ⟨[], false⟩

def FrameReader.push (r : FrameReader) (bytes : List UInt8) : FrameReader :=
  { r with buffer := r.buffer ++ bytes }

def FrameReader.next_message (r : FrameReader) :
    Except ProtocolError (Option Message) × FrameReader :=
  if r.failed then (.error .Malformed, r)
  else
    match read_frame r.buffer with
    | .error e => (.error e, ⟨[], true⟩)
    | .ok none => (.ok none, r)
    | .ok (some (message, rest)) => (.ok (some message), { r with buffer := rest })

/-- Calls `next_message` until it asks for more or fails. -/
def FrameReader.drain : Nat → FrameReader → List Message × Option ProtocolError × FrameReader
  | 0, r => ([], none, r)
  | fuel + 1, r =>
    match r.next_message with
    | (.error e, r) => ([], some e, r)
    | (.ok none, r) => ([], none, r)
    | (.ok (some m), r) => (m :: (r.drain fuel).1, (r.drain fuel).2)

/-- What came of the stream so far: the messages, and the first error. -/
structure Heard where
  messages : List Message
  first_error : Option ProtocolError
  reader : FrameReader

def Heard.start : Heard := ⟨[], none, FrameReader.new⟩

def Heard.feed (h : Heard) (chunk : List UInt8) : Heard :=
  let reader := h.reader.push chunk
  let (messages, error, reader) := reader.drain (reader.buffer.length + 1)
  ⟨h.messages ++ messages, h.first_error.or error, reader⟩

/-! ## Early and late rejection agree -/

variable {e : ProtocolError} {m : Message} {b : List UInt8} {r : FrameReader}

variable {length : Nat} {x : List Message × Except ProtocolError (List UInt8)}

/-- What is refused without the kind byte is refused with it, for the same reason. -/
theorem check_length_kind (h : check_length length none = .error e) (kind : UInt8) :
    check_length length (some kind) = .error e := by
  have hle : MAX_CONTROL_FRAME_BYTES ≤ MAX_FRAME_BYTES := by decide
  unfold check_length at h ⊢
  by_cases h0 : length = 0
  · rw [if_pos h0] at h ⊢
    exact h
  · rw [if_neg h0] at h ⊢
    simp only at h ⊢
    by_cases hbig : length > MAX_FRAME_BYTES
    · rw [if_pos hbig] at h
      rw [if_pos (by split <;> omega)]
      exact h
    · rw [if_neg hbig] at h
      cases h

theorem check_length_pos {kind : Option UInt8} (h : check_length length kind = .ok ()) :
    0 < length := by
  unfold check_length at h
  split at h
  · cases h
  · omega

theorem read_frame_cons (a b c d kind : UInt8) (rest : List UInt8) :
    read_frame (a :: b :: c :: d :: kind :: rest) =
      match check_length (beNat [a, b, c, d]) (some kind) with
      | .error e => .error e
      | .ok () =>
        if (kind :: rest).length < beNat [a, b, c, d] then .ok none
        else
          match Message.decode ((kind :: rest).take (beNat [a, b, c, d])) with
          | .error e => .error e
          | .ok message => .ok (some (message, (kind :: rest).drop (beNat [a, b, c, d]))) := by
  have hlen : (a :: b :: c :: d :: kind :: rest).length < 4 + beNat [a, b, c, d] ↔
      (kind :: rest).length < beNat [a, b, c, d] := by
    simp
    omega
  simp only [read_frame, hlen]
  cases check_length (beNat [a, b, c, d]) (some kind) with
  | error e => rfl
  | ok u =>
    by_cases hshort : (kind :: rest).length < beNat [a, b, c, d]
    · simp only [hshort, if_true]
      rfl
    · simp only [hshort, if_false]
      cases Message.decode ((kind :: rest).take (beNat [a, b, c, d])) <;> rfl

theorem read_frame_four (a b c d : UInt8) : read_frame [a, b, c, d] =
      match check_length (beNat [a, b, c, d]) none with
      | .error e => .error e
      | .ok () => .ok none := by
  simp only [read_frame]
  cases check_length (beNat [a, b, c, d]) none <;> rfl

theorem read_frame_append {buffer : List UInt8} {c : List UInt8} :
    (∀ {m rest}, read_frame buffer = .ok (some (m, rest)) →
      read_frame (buffer ++ c) = .ok (some (m, rest ++ c))) ∧
    ∀ {e}, read_frame buffer = .error e → read_frame (buffer ++ c) = .error e := by
  match buffer with
  | a :: b :: c' :: d :: kind :: rest =>
    simp only [List.cons_append, read_frame_cons]
    cases hcheck : check_length (beNat [a, b, c', d]) (some kind) with
    | error e => simp
    | ok u =>
      have hpos := check_length_pos hcheck
      by_cases hshort : (kind :: rest).length < beNat [a, b, c', d]
      · simp only [hshort, if_true]
        exact ⟨nofun, nofun⟩
      · have hlong : ¬ (kind :: (rest ++ c)).length < beNat [a, b, c', d] := by
          simp at hshort ⊢
          omega
        have htake : (kind :: (rest ++ c)).take (beNat [a, b, c', d]) =
            (kind :: rest).take (beNat [a, b, c', d]) := by
          rw [← List.cons_append, List.take_append_of_le_length (by omega)]
        have hdrop : (kind :: (rest ++ c)).drop (beNat [a, b, c', d]) =
            (kind :: rest).drop (beNat [a, b, c', d]) ++ c := by
          rw [← List.cons_append, List.drop_append_of_le_length (by omega)]
        simp only [hshort, hlong, if_false, htake, hdrop]
        cases Message.decode ((kind :: rest).take (beNat [a, b, c', d])) with
        | error e => simp
        | ok message => simp
  | [a, b, c', d] =>
    have hread := read_frame_four a b c' d
    cases hcheck : check_length (beNat [a, b, c', d]) none with
    | ok u =>
      simp only [hcheck] at hread
      rw [hread]
      exact ⟨nofun, nofun⟩
    | error e =>
      simp only [hcheck] at hread
      refine ⟨by simp [hread], ?_⟩
      intro e' he
      rw [hread] at he
      cases he
      cases c with
      | nil => exact hread
      | cons kind rest =>
        simp [read_frame_cons, check_length_kind hcheck]
  | [] => exact ⟨nofun, nofun⟩
  | [_] => exact ⟨nofun, nofun⟩
  | [_, _] => exact ⟨nofun, nofun⟩
  | [_, _, _] => exact ⟨nofun, nofun⟩

theorem read_frame_shrinks {buffer rest : List UInt8}
    (h : read_frame buffer = .ok (some (m, rest))) : rest.length < buffer.length := by
  match buffer with
  | a :: b :: c :: d :: kind :: tail =>
    rw [read_frame_cons] at h
    split at h
    · cases h
    · split at h
      · cases h
      · split at h
        · cases h
        · cases h
          simp
          omega
  | [a, b, c, d] =>
    rw [read_frame_four] at h
    split at h <;> cases h
  | [] => cases h
  | [_] => cases h
  | [_, _] => cases h
  | [_, _, _] => cases h

theorem incremental_read_frame : Chunks.Incremental read_frame where
  empty := rfl
  shrinks := read_frame_shrinks
  more_message h _ := read_frame_append.1 h
  more_error h _ := read_frame_append.2 h

/-! ## A frame is read back -/

theorem encode_kind (h : m.encode = .ok b) :
    ∃ kind body, b = kind :: body ∧ Message.kind_is_batch kind = m.is_batch := by
  cases m with
  | Welcome welcome =>
    obtain ⟨-, -, rfl⟩ := welcome_encoded h
    exact ⟨_, _, rfl, rfl⟩
  | Goodbye reason =>
    obtain ⟨-, rfl⟩ := goodbye_encoded h
    exact ⟨_, _, rfl, rfl⟩
  | AttachedPanes sessions =>
    obtain ⟨-, rfl⟩ := counted_encoded h
    exact ⟨_, _, rfl, rfl⟩
  | Batch batch =>
    obtain ⟨body, rfl⟩ := batch_encoded h
    exact ⟨_, _, rfl, rfl⟩
  | PanePlacements surface panes =>
    obtain ⟨-, -, rfl⟩ := panes_encoded h
    exact ⟨_, _, rfl, rfl⟩
  | Text surface text =>
    obtain ⟨-, -, rfl⟩ := text_encoded h
    exact ⟨_, _, rfl, rfl⟩
  | VideoConfig config =>
    obtain ⟨-, -, rfl⟩ := config_encoded h
    exact ⟨_, _, rfl, rfl⟩
  | VideoFrame frame =>
    obtain ⟨-, -, rfl⟩ := encode_ok h
    exact ⟨_, _, rfl, rfl⟩
  | Parity parity =>
    obtain ⟨-, -, -, rfl⟩ := parity_encoded h
    exact ⟨_, _, rfl, rfl⟩
  | VideoAcknowledge surface tokens =>
    obtain ⟨-, rfl⟩ := counted_encoded h
    exact ⟨_, _, rfl, rfl⟩
  | _ =>
    cases h
    exact ⟨_, _, rfl, rfl⟩

theorem encode_frame_ok_iff (m : Message) (frame : List UInt8) :
    encode_frame m = .ok frame ↔ ∃ b, m.encode = .ok b ∧ b.length ≤ m.frame_limit ∧
      frame = beBytes 4 b.length ++ b := by
  unfold encode_frame
  cases hencode : m.encode with
  | error e =>
    simp only [reduceCtorEq, false_and, exists_false, iff_false]
    intro h
    cases h
  | ok b =>
    change (if b.length > m.frame_limit then _ else _) = _ ↔ _
    split
    · rename_i hbig
      constructor
      · intro h
        cases h
      · rintro ⟨b', hb, hle, -⟩
        cases hb
        omega
    · rename_i hle
      constructor
      · intro h
        cases h
        exact ⟨b, rfl, by omega, rfl⟩
      · rintro ⟨b', hb, -, rfl⟩
        cases hb
        rfl

theorem frame_limit_le (m : Message) : m.frame_limit ≤ MAX_FRAME_BYTES := by
  have hle : MAX_CONTROL_FRAME_BYTES ≤ MAX_FRAME_BYTES := by decide
  unfold Message.frame_limit
  split <;> omega

theorem read_frame_frame {m' : Message} (h : m.encode = .ok b) (hle : b.length ≤ m.frame_limit)
    (hdecode : Message.decode b = .ok m') (rest : List UInt8) :
    read_frame (beBytes 4 b.length ++ b ++ rest) = .ok (some (m', rest)) := by
  obtain ⟨kind, body, rfl, hkind⟩ := encode_kind h
  have hmax := frame_limit_le m
  have hlt : (kind :: body).length < 256 ^ 4 := by
    have : MAX_FRAME_BYTES = 1048577 := by decide
    omega
  have hcheck : check_length (kind :: body).length (some kind) = .ok () := by
    unfold check_length
    rw [if_neg (by simp)]
    unfold Message.frame_limit at hle
    simp only [hkind]
    rw [if_neg]
    cases hb : m.is_batch <;> simp [hb] at hle ⊢ <;>
      simpa using hle
  obtain ⟨w, x, y, z, hbytes⟩ : ∃ w x y z, beBytes 4 (kind :: body).length = [w, x, y, z] :=
    ⟨_, _, _, _, rfl⟩
  have hlen : beNat [w, x, y, z] = (kind :: body).length := by rw [← hbytes, beNat_beBytes hlt]
  rw [hbytes]
  simp only [List.cons_append, List.nil_append, read_frame_cons, hlen, hcheck]
  rw [if_neg (by simp only [List.length_cons, List.length_append]; omega), ← List.cons_append,
    List.take_left, List.drop_left, hdecode]

/-! ## The reader is the stream drained -/

/-- The reader's state after a stream of which this was drained. -/
def Matches (h : Heard) : List Message × Except ProtocolError (List UInt8) → Prop
  | (ms, .ok rest) => h = ⟨ms, none, ⟨rest, false⟩⟩
  | (ms, .error e) => h.messages = ms ∧ h.first_error = some e ∧ h.reader.failed = true

theorem drain_eq (fuel : Nat) (buffer : List UInt8) : FrameReader.drain fuel ⟨buffer, false⟩ =
      match Chunks.drainFor read_frame fuel buffer with
      | (ms, .ok rest) => (ms, none, ⟨rest, false⟩)
      | (ms, .error e) => (ms, some e, ⟨[], true⟩) := by
  induction fuel generalizing buffer with
  | zero => rfl
  | succ fuel ih =>
    rw [FrameReader.drain, Chunks.drainFor, FrameReader.next_message]
    simp
    cases read_frame buffer with
    | error e => rfl
    | ok r =>
      cases r with
      | none => rfl
      | some p =>
        obtain ⟨m, rest⟩ := p
        simp only [ih rest]
        rcases Chunks.drainFor read_frame fuel rest with ⟨ms, e | left⟩ <;> rfl

theorem next_message_failed (h : r.failed = true) : r.next_message = (.error .Malformed, r) := by
  unfold FrameReader.next_message
  rw [if_pos h]

theorem matches_feed {h : Heard} (hx : Matches h x) (chunk : List UInt8) :
    Matches (h.feed chunk) (Chunks.more read_frame chunk x) := by
  obtain ⟨ms, e | rest⟩ := x
  · obtain ⟨hm, he, hf⟩ := hx
    have hpush : (h.reader.push chunk).failed = true := hf
    have hdrain : ∀ fuel, (h.reader.push chunk).drain (fuel + 1) =
        ([], some .Malformed, h.reader.push chunk) := by
      intro fuel
      rw [FrameReader.drain, next_message_failed hpush]
    unfold Heard.feed
    simp only [hdrain]
    exact ⟨by simpa using hm, by simp [he], hpush⟩
  · cases hx
    unfold Heard.feed
    simp only [FrameReader.push, drain_eq]
    change Matches _ (ms ++ (Chunks.drain read_frame (rest ++ chunk)).1, _)
    unfold Chunks.drain
    rcases Chunks.drainFor read_frame ((rest ++ chunk).length + 1) (rest ++ chunk) with ⟨ms', e | left⟩
    · exact ⟨rfl, rfl, rfl⟩
    · rfl

theorem matches_chunks (chunks : List (List UInt8)) :
    Matches (chunks.foldl Heard.feed Heard.start) (Chunks.drain read_frame chunks.flatten) := by
  rw [← Chunks.feed_eq incremental_read_frame]
  induction chunks using List.reverseRecOn with
  | nil => rfl
  | append_singleton chunks chunk ih =>
    unfold Chunks.feed at ih ⊢
    rw [List.foldl_append, List.foldl_append]
    exact matches_feed ih chunk

theorem matches_unique {h h' : Heard} (h1 : Matches h x) (h2 : Matches h' x) :
    h.messages = h'.messages ∧ h.first_error = h'.first_error := by
  obtain ⟨ms, e | rest⟩ := x
  · exact ⟨h1.1.trans h2.1.symm, h1.2.1.trans h2.2.1.symm⟩
  · rw [show h = _ from h1, show h' = _ from h2]
    exact ⟨rfl, rfl⟩

/-! ## Nothing after an error -/

/-- What the owner of a reader does with it. -/
inductive ReaderCall
  | push (bytes : List UInt8)
  | next_message

def FrameReader.results : FrameReader → List ReaderCall → List (Except ProtocolError (Option Message))
  | _, [] => []
  | r, .push bytes :: calls => (r.push bytes).results calls
  | r, .next_message :: calls => r.next_message.1 :: r.next_message.2.results calls

theorem results_failed (h : r.failed = true) (calls : List ReaderCall) :
    ∀ x ∈ r.results calls, x = .error .Malformed := by
  induction calls generalizing r with
  | nil => exact nofun
  | cons call calls ih =>
    cases call with
    | push bytes => exact ih (r := r.push bytes) h
    | next_message =>
      rw [FrameReader.results, next_message_failed h]
      intro x hx
      rcases List.mem_cons.mp hx with rfl | hx
      · rfl
      · exact ih h x hx

theorem next_message_error (h : r.next_message.1 = .error e) : r.next_message.2.failed = true := by
  unfold FrameReader.next_message at h ⊢
  split at h
  · rename_i hf
    rw [if_pos hf]
    exact hf
  · rename_i hf
    rw [if_neg hf]
    split at h
    · rfl
    · cases h
    · cases h

theorem results_after_error (r : FrameReader) (calls : List ReaderCall)
    {before after : List (Except ProtocolError (Option Message))}
    (h : r.results calls = before ++ .error e :: after) : ∀ x ∈ after, x = .error .Malformed := by
  induction calls generalizing r before with
  | nil => simp [FrameReader.results] at h
  | cons call calls ih =>
    cases call with
    | push bytes => exact ih (r.push bytes) h
    | next_message =>
      rw [FrameReader.results] at h
      cases before with
      | nil =>
        simp at h
        obtain ⟨herror, rfl⟩ := h
        exact results_failed (next_message_error herror) calls
      | cons x before =>
        simp at h
        exact ih _ h.2

/-! ## The laws of the stream -/

/-- The frames of messages in bounds, as the frames the reader will read. -/
theorem frames_read {ms : List Message} {frames : List (List UInt8)}
    (hin : ∀ m ∈ ms, m.InBounds) (h : ms.mapM encode_frame = .ok frames) :
    ∃ pairs : List (List UInt8 × Message), pairs.map Prod.fst = frames ∧
      pairs.map Prod.snd = ms.map Message.withoutLegacyFeatures ∧
      ∀ f ∈ pairs, ∀ rest, read_frame (f.1 ++ rest) = .ok (some (f.2, rest)) := by
  induction ms generalizing frames with
  | nil =>
    cases h
    exact ⟨[], rfl, rfl, nofun⟩
  | cons m ms ih =>
    rw [List.mapM_cons] at h
    cases hm : encode_frame m with
    | error e => rw [hm] at h; cases h
    | ok frame =>
      rw [hm] at h
      cases hms : ms.mapM encode_frame with
      | error e => rw [hms] at h; cases h
      | ok rest =>
        rw [hms] at h
        cases h
        obtain ⟨pairs, h1, h2, h3⟩ := ih (fun m' hm' => hin m' (by simp [hm'])) hms
        obtain ⟨b, hb, hle, rfl⟩ := (encode_frame_ok_iff m frame).mp hm
        have hdecode := decode_encoded hb (hin m (by simp))
        refine ⟨(beBytes 4 b.length ++ b, m.withoutLegacyFeatures) :: pairs, by simp [h1],
          by simp [h2], ?_⟩
        intro f hf
        rcases List.mem_cons.mp hf with rfl | hf
        · exact read_frame_frame hb hle hdecode
        · exact h3 f hf

/-- However a stream is cut, the same messages and the same first error are heard; nothing but
errors comes after an error; and the frames of messages in bounds are heard as those messages, with
nothing left over. -/
theorem framing_does_not_see_the_chunks :
    (∀ chunks chunks' : List (List UInt8), chunks.flatten = chunks'.flatten →
      (chunks.foldl Heard.feed Heard.start).messages =
        (chunks'.foldl Heard.feed Heard.start).messages ∧
      (chunks.foldl Heard.feed Heard.start).first_error =
        (chunks'.foldl Heard.feed Heard.start).first_error) ∧
    (∀ (r : FrameReader) (calls : List ReaderCall) (before after : List _) (e : ProtocolError),
      r.results calls = before ++ .error e :: after → ∀ x ∈ after, x = .error .Malformed) ∧
    ∀ (ms : List Message) (frames chunks : List (List UInt8)), (∀ m ∈ ms, m.InBounds) →
      ms.mapM encode_frame = .ok frames → chunks.flatten = frames.flatten →
      chunks.foldl Heard.feed Heard.start =
        ⟨ms.map Message.withoutLegacyFeatures, none, FrameReader.new⟩ := by
  refine ⟨?_, ?_, ?_⟩
  · intro chunks chunks' heq
    have h := matches_chunks chunks
    rw [heq] at h
    exact matches_unique h (matches_chunks chunks')
  · intro r calls before after e h
    exact results_after_error r calls h
  · intro ms frames chunks hin hframes heq
    obtain ⟨pairs, rfl, hsnd, hread⟩ := frames_read hin hframes
    have h := matches_chunks chunks
    rw [heq, Chunks.drain_frames incremental_read_frame pairs hread, hsnd] at h
    exact h

/-- A request for control, its frame in two pieces. -/
theorem a_split_frame_is_heard : [[0, 0], [0, 1, REQUEST_CONTROL]].foldl Heard.feed Heard.start =
      ⟨[.RequestControl], none, FrameReader.new⟩ :=
  framing_does_not_see_the_chunks.2.2 [.RequestControl] [[0, 0, 0, 1, REQUEST_CONTROL]] _
    (List.forall_mem_singleton.mpr (inBounds_free rfl rfl rfl rfl nofun nofun)) rfl rfl

/-- The frame of a viewport that shows nothing ends the stream. -/
theorem an_empty_viewport_ends_the_stream :
    ¬ ∀ (ms : List Message) (frames chunks : List (List UInt8)),
      ms.mapM encode_frame = .ok frames → chunks.flatten = frames.flatten →
      (chunks.foldl Heard.feed Heard.start).messages = ms := by
  intro h
  have hframe : [emptyViewport].mapM encode_frame = .ok [beBytes 4 23 ++ VIEWPORT ::
      [0, 0, 0, 1, 0, 0, 0, 0, 0, 0, 0, 0, 0, 0, 0, 0, 0, 0, 0, 0, 3, 232]] := by decide +kernel
  have hheard := h _ _ _ hframe rfl
  exact absurd hheard (by decide +kernel)

/-! ## Which messages cross the stream -/

/-- The message is small enough for its frame. Only the payloads of the motion path can be too
large: a control frame is shorter than they may be. -/
def Message.FitsFrame : Message → Prop
  | .VideoConfig config => config.payload.length + 26 ≤ MAX_CONTROL_FRAME_BYTES
  | .VideoFrame frame =>
    frame.payload.length + (if frame.token.isSome then 23 else 19) ≤ MAX_CONTROL_FRAME_BYTES
  | .Parity parity => parity.payload.length + 19 ≤ MAX_CONTROL_FRAME_BYTES
  | _ => True

theorem length_flatMap_le {α : Type} (l : List α) (f : α → List UInt8) (n : Nat)
    (h : ∀ a ∈ l, (f a).length ≤ n) : (l.flatMap f).length ≤ l.length * n := by
  induction l with
  | nil => simp
  | cons a l ih =>
    have h1 := h a (by simp)
    have h2 := ih fun b hb => h b (by simp [hb])
    rw [List.flatMap_cons, List.length_append, List.length_cons, Nat.succ_mul]
    omega

@[simp] theorem length_write_u16 (v : UInt16) : (write_u16 v).length = 2 := length_beBytes 2 _

@[simp] theorem length_write_u32 (v : UInt32) : (write_u32 v).length = 4 := length_beBytes 4 _

@[simp] theorem length_write_u64 (v : UInt64) : (write_u64 v).length = 8 := length_beBytes 8 _

@[simp] theorem length_write_rect (r : WireRect) : (write_rect r).length = 16 := by
  simp [write_rect]

@[simp] theorem length_write_resume (r : ResumeRequest) : (write_resume r).length = 16 := by
  simp [write_resume]

@[simp] theorem length_string_bytes (text : String) :
    (string_bytes text).length = text.utf8ByteSize + 2 := by
  rw [string_bytes, List.length_append, length_beBytes, length_string]
  omega

theorem length_write_features (version : UInt16) (bits : UInt32) :
    (write_features version bits).length ≤ 4 := by
  unfold write_features
  split <;> simp

theorem length_optional_resume (r : Option ResumeRequest) :
    (write_optional_resume r).length ≤ 17 := by
  cases r <;> simp [write_optional_resume]

theorem length_optional_rect (r : Option WireRect) : (write_optional_rect r).length ≤ 17 := by
  cases r <;> simp [write_optional_rect]

/-- The frame of a message that encodes is within its limit exactly when the message fits. -/
theorem length_le_limit_iff (h : m.encode = .ok b) : b.length ≤ m.frame_limit ↔ m.FitsFrame := by
  have hcontrol : MAX_CONTROL_FRAME_BYTES = 65536 := rfl
  cases m with
  | Hello hello =>
    cases h
    have h1 := length_write_features hello.version hello.features.bits
    have h2 := length_optional_resume hello.resume
    have h3 := hello.ticket_proof.property
    simp only [Message.frame_limit, Message.is_batch, Message.FitsFrame, Hello.head, iff_true,
      List.length_cons, List.length_append, length_write_u16, length_write_u64]
    simp
    omega
  | Welcome welcome =>
    obtain ⟨hlen, hnames, rfl⟩ := welcome_encoded h
    have h1 := length_write_features welcome.version welcome.features.bits
    have h2 : (welcome.surfaces.flatMap surface_bytes).length ≤ welcome.surfaces.length * 144 := by
      apply length_flatMap_le
      intro s hs
      have := hnames s hs
      simp only [MAX_NAME_BYTES] at this
      simp [surface_bytes]
      omega
    simp only [MAX_SURFACES] at hlen
    simp only [Message.frame_limit, Message.is_batch, Message.FitsFrame, Welcome.head, iff_true,
      List.length_cons, List.length_append, length_write_u16, List.length_nil]
    simp only [Bool.false_eq_true, if_false]
    omega
  | Goodbye reason =>
    obtain ⟨hlen, rfl⟩ := goodbye_encoded h
    simp only [MAX_REASON_BYTES] at hlen
    simp [Message.frame_limit, Message.is_batch, Message.FitsFrame]
    omega
  | AttachedPanes sessions =>
    obtain ⟨hlen, rfl⟩ := counted_encoded h
    have h1 : (sessions.flatMap Subtype.val).length ≤ sessions.length * 16 :=
      length_flatMap_le _ _ _ fun s _ => s.property.le
    simp only [MAX_PANES] at hlen
    simp only [Message.frame_limit, Message.is_batch, Message.FitsFrame, iff_true, List.length_cons,
      Bool.false_eq_true, if_false]
    omega
  | Batch batch =>
    obtain ⟨body, rfl⟩ := batch_encoded h
    have hle : body.length ≤ MAX_BATCH_BYTES :=
      ((decode_ok_iff body batch.val).mp ((encode_batch_ok_iff batch body).mp h)).2.2
    simp [Message.frame_limit, Message.is_batch, Message.FitsFrame, MAX_FRAME_BYTES]
    omega
  | MotionRegion surface rect =>
    cases h
    have h1 := length_optional_rect rect
    simp [Message.frame_limit, Message.is_batch, Message.FitsFrame]
    omega
  | PanePlacements surface panes =>
    obtain ⟨hlen, -, rfl⟩ := panes_encoded h
    have h1 : (panes.flatMap pane_bytes).length ≤ panes.length * 36 := by
      apply length_flatMap_le
      intro p _
      have := p.session.property
      simp [pane_bytes]
      omega
    simp only [MAX_PANES] at hlen
    simp only [Message.frame_limit, Message.is_batch, Message.FitsFrame, iff_true, List.length_cons,
      List.length_append, length_write_u32, List.length_nil, Bool.false_eq_true, if_false]
    omega
  | Text surface text =>
    obtain ⟨-, hlen, rfl⟩ := text_encoded h
    simp only [MAX_TEXT_BYTES] at hlen
    simp [Message.frame_limit, Message.is_batch, Message.FitsFrame]
    omega
  | VideoConfig config =>
    obtain ⟨-, -, rfl⟩ := config_encoded h
    simp [Message.frame_limit, Message.is_batch, Message.FitsFrame, config_bytes, write_sized]
    omega
  | VideoFrame frame =>
    obtain ⟨-, -, rfl⟩ := encode_ok h
    have htoken : (write_token frame.token).length = if frame.token.isSome then 5 else 1 := by
      cases frame.token <;> simp [write_token]
    simp [Message.frame_limit, Message.is_batch, Message.FitsFrame, VideoFrame.body, htoken]
    split <;> omega
  | Parity parity =>
    obtain ⟨-, -, -, rfl⟩ := parity_encoded h
    simp [Message.frame_limit, Message.is_batch, Message.FitsFrame, parity_bytes, write_sized]
    omega
  | VideoAcknowledge surface tokens =>
    obtain ⟨hlen, rfl⟩ := counted_encoded h
    have h1 : (tokens.flatMap write_u32).length ≤ tokens.length * 4 :=
      length_flatMap_le _ _ _ fun t _ => (length_write_u32 t).le
    simp only [MAX_VIDEO_TOKENS] at hlen
    simp [Message.frame_limit, Message.is_batch, Message.FitsFrame]
    omega
  | _ =>
    cases h
    simp [Message.frame_limit, Message.is_batch, Message.FitsFrame, hcontrol]

/-- What it is for a message to cross: it has a frame, and a reader fed that frame gives the message
and has nothing left. -/
def Message.Crosses (m : Message) : Prop :=
  ∃ frame, encode_frame m = .ok frame ∧
    (FrameReader.new.push frame).next_message = (.ok (some m), FrameReader.new)

theorem crosses_of_le (h : m.encode = .ok b) (hdecode : Message.decode b = .ok m)
    (hle : b.length ≤ m.frame_limit) : m.Crosses := by
  refine ⟨beBytes 4 b.length ++ b, (encode_frame_ok_iff m _).mpr ⟨b, h, hle, rfl⟩, ?_⟩
  have hread := read_frame_frame h hle hdecode []
  rw [List.append_nil] at hread
  simp [FrameReader.next_message, FrameReader.push, FrameReader.new, hread]

theorem le_of_crosses (h : m.encode = .ok b) (hm : m.Crosses) : b.length ≤ m.frame_limit := by
  obtain ⟨frame, hframe, -⟩ := hm
  obtain ⟨b', hb', hle, -⟩ := (encode_frame_ok_iff m frame).mp hframe
  rw [h] at hb'
  cases hb'
  exact hle

/-- A message that encodes and decodes crosses the stream exactly when it fits its frame. -/
theorem a_message_crosses_iff_it_fits (m : Message) (b : List UInt8) (h : m.encode = .ok b)
    (hdecode : Message.decode b = .ok m) : m.Crosses ↔ m.FitsFrame := by
  rw [← length_le_limit_iff h]
  exact ⟨le_of_crosses h, crosses_of_le h hdecode⟩

theorem a_loss_report_crosses : (Message.VideoLost 1 2).Crosses :=
  (a_message_crosses_iff_it_fits (.VideoLost 1 2) _ rfl (by decide +kernel)).mpr trivial

/-- A keyframe of 64 KiB, far below what a video frame may carry. -/
def largeKeyframe : VideoFrame := ⟨1, 1, true, none, List.replicate 65536 0⟩

theorem a_large_keyframe_does_not_cross :
    ¬ ∀ (m : Message) (b : List UInt8), m.encode = .ok b → Message.decode b = .ok m →
      m.Crosses := by
  intro h
  have hlen : largeKeyframe.payload.length = 65536 := List.length_replicate
  have hencode : (Message.VideoFrame largeKeyframe).encode =
      .ok (VIDEO_FRAME :: largeKeyframe.body) := by
    rw [Message.encode, VideoFrame.encode, if_neg (payload_fits (by omega) (by rw [hlen]; decide))]
  have hdecode : Message.decode (VIDEO_FRAME :: largeKeyframe.body) =
      .ok (.VideoFrame largeKeyframe) :=
    decode_encoded hencode (inBounds_free rfl rfl rfl rfl (by simp) (by simp))
  have hfits := (length_le_limit_iff hencode).mp (le_of_crosses hencode (h _ _ hencode hdecode))
  simp only [Message.FitsFrame, hlen] at hfits
  exact absurd hfits (by decide)

end multiplex_screen_protocol
