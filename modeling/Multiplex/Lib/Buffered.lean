-- A stream heard through a buffer with a limit. A chunk that does not fit is
-- refused before it is looked at, and the messages of a chunk that ends in an
-- error are lost. So the cut of the stream matters, and here is how much.
import Multiplex.Lib.Chunks

namespace Chunks

variable {β μ ε : Type}

/-- A message is read off its own bytes: what follows them is left alone. -/
structure Framed (read : Step β μ ε) : Prop extends Incremental read where
  prompt : ∀ {b m rest}, read b = .ok (some (m, rest)) → ∃ f, b = f ++ rest ∧
    read f = .ok (some (m, []))

/-- The bytes are one whole message. -/
def IsFrame (read : Step β μ ε) (f : List β) : Prop := ∃ m, read f = .ok (some (m, []))

/-- What was heard, and the bytes that wait for more, if nothing has failed. -/
abbrev Hearing (β μ : Type) := List μ × Option (List β)

/-- The next chunk, into a buffer that holds `max` bytes. -/
def hear (read : Step β μ ε) (max : Nat) : Hearing β μ → List β → Hearing β μ
  | (ms, none), _ => (ms, none)
  | (ms, some b), c =>
    if b.length + c.length > max then (ms, none)
    else
      match drain read (b ++ c) with
      | (new, .ok rest) => (ms ++ new, some rest)
      | (_, .error _) => (ms, none)

def hearAll (read : Step β μ ε) (max : Nat) (chunks : List (List β)) : Hearing β μ :=
  chunks.foldl (hear read max) ([], some [])

variable {read : Step β μ ε} {max : Nat}

@[simp] theorem hearAll_nil : hearAll read max [] = ([], some []) := rfl

theorem hearAll_concat (chunks : List (List β)) (c : List β) :
    hearAll read max (chunks ++ [c]) = hear read max (hearAll read max chunks) c := by
  unfold hearAll
  rw [List.foldl_append, List.foldl_cons, List.foldl_nil]

theorem hear_none (ms : List μ) (chunks : List (List β)) :
    chunks.foldl (hear read max) (ms, none) = (ms, none) := by
  induction chunks with
  | nil => rfl
  | cons c chunks ih => rw [List.foldl_cons, hear, ih]

/-! ## Frames and what is left -/

variable {f b : List β} {ms : List μ} {piece : Nat}

theorem IsFrame.ne_nil (h : Incremental read) (hf : IsFrame read f) : f ≠ [] := by
  rintro rfl
  obtain ⟨m, hm⟩ := hf
  rw [h.empty] at hm
  cases hm

theorem IsFrame.append (h : Incremental read) (hf : IsFrame read f) (c : List β) :
    ∃ m, read (f ++ c) = .ok (some (m, c)) := by
  obtain ⟨m, hm⟩ := hf
  exact ⟨m, h.more_message hm c⟩

variable {c s : List β} {chunks frames : List (List β)}

/-- The bytes that wait are a strict part of the frame that they begin. -/
theorem waits_of_part (h : Incremental read) (hf : IsFrame read f) (hfb : f = b ++ c)
    (hc : c ≠ []) : read b = .ok none := by
  obtain ⟨m, hm⟩ := hf
  rw [hfb] at hm
  cases hb : read b with
  | error e =>
    rw [h.more_error hb c] at hm
    cases hm
  | ok r =>
    cases r with
    | none => rfl
    | some p =>
      rw [h.more_message hb c] at hm
      simp at hm
      exact absurd hm.2.2 hc

/-- Bytes that wait are shorter than any frame at the front of them and what follows. -/
theorem length_lt_of_waits (h : Incremental read) {rest : List β} (hb : read b = .ok none)
    (hf : IsFrame read f) (heq : b ++ c = f ++ rest) : b.length < f.length := by
  by_contra hle
  have hpre : f <+: b := List.prefix_of_prefix_length_le
    (heq ▸ List.prefix_append f rest) (List.prefix_append b c) (not_lt.mp hle)
  obtain ⟨t, rfl⟩ := hpre
  obtain ⟨m, hm⟩ := hf.append h t
  rw [hm] at hb
  cases hb

theorem drain_waits (h : Incremental read) (hb : read b = .ok none) :
    drain read b = ([], .ok b) := by
  rw [drain_step h, hb]

/-- What a drain leaves waits for more. -/
theorem drain_left (h : Framed read) (s : List β) :
    ∀ {ms b}, drain read s = (ms, .ok b) → ∃ frames : List (List β), s = frames.flatten ++ b ∧
      (∀ f ∈ frames, IsFrame read f) ∧ frames.length = ms.length ∧ read b = .ok none := by
  induction hn : s.length using Nat.strong_induction_on generalizing s with
  | _ n ih =>
    intro ms b hd
    rw [drain_step h.toIncremental] at hd
    cases hr : read s with
    | error e =>
      rw [hr] at hd
      cases hd
    | ok r =>
      rw [hr] at hd
      cases r with
      | none =>
        cases hd
        exact ⟨[], rfl, by simp, rfl, hr⟩
      | some p =>
        obtain ⟨m, rest⟩ := p
        simp at hd
        obtain ⟨rfl, hrest⟩ := hd
        obtain ⟨f, rfl, hf⟩ := h.prompt hr
        obtain ⟨frames, hflat, hframes, hlen, hb⟩ :=
          ih rest.length (hn ▸ h.shrinks hr) rest rfl (Prod.ext rfl hrest)
        refine ⟨f :: frames, by rw [List.flatten_cons, List.append_assoc, ← hflat], ?_, ?_, hb⟩
        · intro g hg
          rcases List.mem_cons.mp hg with rfl | hg
          · exact ⟨m, hf⟩
          · exact hframes g hg
        · simp [hlen]

theorem drain_refused (h : Framed read) (s : List β) :
    ∀ {ms e}, drain read s = (ms, .error e) → ∃ (frames : List (List β)) (bad : List β),
      s = frames.flatten ++ bad ∧ (∀ f ∈ frames, IsFrame read f) ∧ frames.length = ms.length ∧
      read bad = .error e := by
  induction hn : s.length using Nat.strong_induction_on generalizing s with
  | _ n ih =>
    intro ms e hd
    rw [drain_step h.toIncremental] at hd
    cases hr : read s with
    | error e' =>
      rw [hr] at hd
      cases hd
      exact ⟨[], s, rfl, by simp, rfl, hr⟩
    | ok r =>
      rw [hr] at hd
      cases r with
      | none => cases hd
      | some p =>
        obtain ⟨m, rest⟩ := p
        simp at hd
        obtain ⟨rfl, hrest⟩ := hd
        obtain ⟨f, rfl, hf⟩ := h.prompt hr
        obtain ⟨frames, bad, hflat, hframes, hlen, hbad⟩ :=
          ih rest.length (hn ▸ h.shrinks hr) rest rfl (Prod.ext rfl hrest)
        refine ⟨f :: frames, bad, by rw [List.flatten_cons, List.append_assoc, ← hflat], ?_, ?_, hbad⟩
        · intro g hg
          rcases List.mem_cons.mp hg with rfl | hg
          · exact ⟨m, hf⟩
          · exact hframes g hg
        · simp [hlen]

/-- Frames in front are drained, and what follows them after that. -/
theorem drain_after_frames (h : Incremental read) (frames : List (List β))
    (hframes : ∀ f ∈ frames, IsFrame read f) (s : List β) :
    ∃ ms : List μ, ms.length = frames.length ∧ drain read frames.flatten = (ms, .ok []) ∧
      drain read (frames.flatten ++ s) = (ms ++ (drain read s).1, (drain read s).2) := by
  induction frames with
  | nil =>
    refine ⟨[], rfl, ?_, ?_⟩
    · exact drain_waits h h.empty
    · simp
  | cons f frames ih =>
    obtain ⟨ms, hlen, hd, hds⟩ := ih fun g hg => hframes g (by simp [hg])
    have hf := hframes f (by simp)
    obtain ⟨m, hm⟩ := hf
    refine ⟨m :: ms, by simp [hlen], ?_, ?_⟩
    · rw [List.flatten_cons, drain_step h, h.more_message hm]
      simp [hd]
    · rw [List.flatten_cons, List.append_assoc, drain_step h, h.more_message hm]
      simp [hds]

/-! ## What is heard of a stream -/

/-- While nothing has failed, the stream so far was drained. -/
theorem drain_of_heard (h : Incremental read) (chunks : List (List β)) :
    ∀ {ms b}, hearAll read max chunks = (ms, some b) → drain read chunks.flatten = (ms, .ok b) := by
  induction chunks using List.reverseRecOn with
  | nil =>
    intro ms b hh
    cases hh
    exact drain_waits h h.empty
  | append_singleton chunks c ih =>
    intro ms b hh
    rw [hearAll_concat] at hh
    rcases hs : hearAll read max chunks with ⟨ms', _ | b'⟩
    · rw [hs] at hh
      cases hh
    · rw [hs, hear] at hh
      split at hh
      · cases hh
      · rw [List.flatten_append, List.flatten_singleton, drain_append h, ih hs, more]
        rcases hd : drain read (b' ++ c) with ⟨new, e | rest⟩ <;> rw [hd] at hh <;> cases hh
        rfl

/-- Two ways for a chunk to fail: it does not fit, or it ends in an error. -/
theorem hear_fails {r : List μ} (hh : hear read max (ms, some b) c = (r, none)) :
    r = ms ∧ (max < b.length + c.length ∨ ∃ new e, drain read (b ++ c) = (new, .error e)) := by
  rw [hear] at hh
  split at hh
  · rename_i hbig
    cases hh
    exact ⟨rfl, .inl hbig⟩
  · rcases hd : drain read (b ++ c) with ⟨new, e | rest⟩ <;> rw [hd] at hh <;> cases hh
    exact ⟨rfl, .inr ⟨new, e, rfl⟩⟩

theorem fails_at (chunks : List (List β)) (hh : hearAll read max chunks = (ms, none)) :
    ∃ pre c post b, chunks = pre ++ c :: post ∧ hearAll read max pre = (ms, some b) ∧
      hear read max (ms, some b) c = (ms, none) := by
  induction chunks using List.reverseRecOn generalizing ms with
  | nil => cases hh
  | append_singleton chunks c ih =>
    rw [hearAll_concat] at hh
    rcases hs : hearAll read max chunks with ⟨ms', _ | b⟩
    · rw [hs, hear] at hh
      cases hh
      obtain ⟨pre, c', post, b, rfl, hpre, hfail⟩ := ih hs
      exact ⟨pre, c', post ++ [c], b, by simp, hpre, hfail⟩
    · rw [hs] at hh
      obtain ⟨rfl, -⟩ := hear_fails hh
      exact ⟨chunks, c, [], b, rfl, hs, hh⟩

/-! ## One byte at a time -/

/-- What a drain comes to, as it is heard. -/
def heardOf : List μ × Except ε (List β) → Hearing β μ
  | (ms, .ok b) => (ms, some b)
  | (ms, .error _) => (ms, none)

theorem heardOf_fst (d : List μ × Except ε (List β)) : (heardOf d).1 = d.1 := by
  rcases d with ⟨ms, e | b⟩ <;> rfl

/-- One more byte completes a message, is refused or is waited for: it never does two of these. -/
theorem drain_one_more (h : Framed read) (hb : read b = .ok none) (x : β) :
    (∃ m, drain read (b ++ [x]) = ([m], .ok [])) ∨ (∃ e, drain read (b ++ [x]) = ([], .error e)) ∨
      drain read (b ++ [x]) = ([], .ok (b ++ [x])) := by
  rw [drain_step h.toIncremental]
  cases hr : read (b ++ [x]) with
  | error e => exact .inr (.inl ⟨e, rfl⟩)
  | ok r =>
    cases r with
    | none => exact .inr (.inr rfl)
    | some p =>
      obtain ⟨m, rest⟩ := p
      obtain ⟨f, heq, hf⟩ := h.prompt hr
      have hlt := length_lt_of_waits h.toIncremental hb ⟨m, hf⟩ heq
      have hlen := congrArg List.length heq
      simp at hlen
      have hrest : rest = [] := List.eq_nil_of_length_eq_zero (by omega)
      rw [hrest]
      refine .inl ⟨m, ?_⟩
      simp only [drain_waits h.toIncremental h.empty]

/-- A step that never waits with a full buffer hears all of a stream that comes byte by byte. -/
theorem bytewise_hears (h : Framed read) (hroom : ∀ {b}, read b = .ok none → b.length < max)
    (s : List β) : hearAll read max (s.map fun x => [x]) = heardOf (drain read s) := by
  induction s using List.reverseRecOn with
  | nil => rw [List.map_nil, hearAll_nil, drain_waits h.toIncremental h.empty, heardOf]
  | append_singleton s x ih =>
    rw [List.map_append, List.map_singleton, hearAll_concat, drain_append h.toIncremental, ih]
    rcases hd : drain read s with ⟨ms, e | b⟩
    · rfl
    · obtain ⟨-, -, -, -, hb⟩ := drain_left h s hd
      have hfit : ¬ b.length + [x].length > max := by
        have := hroom hb
        rw [List.length_singleton]
        omega
      rw [heardOf, hear, if_neg hfit, more]
      rcases drain_one_more h hb x with ⟨m, hm⟩ | ⟨e, he⟩ | hw
      · rw [hm]
        rfl
      · rw [he, heardOf, List.append_nil]
      · rw [hw]
        rfl

/-! ## Which streams can be cut so that messages are lost -/

/-- A frame that fills the buffer to within a chunk is followed by too much. -/
def Overrun (read : Step β μ ε) (max piece : Nat) (s : List β) : Prop :=
  ∃ (frames : List (List β)) (f rest : List β), s = frames.flatten ++ f ++ rest ∧
    (∀ g ∈ frames, IsFrame read g) ∧ IsFrame read f ∧
    max + 1 < f.length + piece ∧ max < f.length + rest.length

/-- A frame is followed by bytes that are refused within the same chunk. -/
def Spoilt (read : Step β μ ε) (piece : Nat) (s : List β) : Prop :=
  ∃ (frames : List (List β)) (f bad rest : List β), s = frames.flatten ++ f ++ bad ++ rest ∧
    (∀ g ∈ frames, IsFrame read g) ∧ IsFrame read f ∧
    (∃ e, read bad = .error e) ∧ bad.length + 1 ≤ piece

/-- A cut of the stream into chunks of at most `piece` bytes. -/
structure Cut (piece : Nat) (s : List β) (chunks : List (List β)) : Prop where
  whole : chunks.flatten = s
  small : ∀ c ∈ chunks, c.length ≤ piece

/-- A chunk that fails hides a message that was there. -/
theorem lossy_of_hidden (h : Framed read) {pre post : List (List β)}
    (hpre : hearAll read max pre = (ms, some b)) (hfail : hear read max (ms, some b) c = (ms, none))
    (hc : c.length ≤ piece) (hmore : (drain read (pre ++ c :: post).flatten).1 ≠ ms) :
    Overrun read max piece (pre ++ c :: post).flatten ∨
      Spoilt read piece (pre ++ c :: post).flatten := by
  have hdrain := drain_of_heard h.toIncremental pre hpre
  obtain ⟨frames, hflat, hframes, -, hb⟩ := drain_left h _ hdrain
  have hs : (pre ++ c :: post).flatten = frames.flatten ++ (b ++ c ++ post.flatten) := by
    rw [List.flatten_append, List.flatten_cons, hflat]
    simp
  rw [List.flatten_append, drain_append h.toIncremental, hdrain, more] at hmore
  have hnext : (drain read (b ++ (c :: post).flatten)).1 ≠ [] := by
    intro hnil
    exact hmore (by rw [hnil, List.append_nil])
  rw [List.flatten_cons, ← List.append_assoc] at hnext
  rw [hs]
  obtain ⟨-, hbig | ⟨new, e, he⟩⟩ := hear_fails hfail
  · -- the message that is hidden ends after the bytes that wait
    left
    cases hr : read (b ++ c ++ post.flatten) with
    | error e =>
      rw [drain_step h.toIncremental, hr] at hnext
      exact absurd rfl hnext
    | ok r =>
      cases r with
      | none =>
        rw [drain_step h.toIncremental, hr] at hnext
        exact absurd rfl hnext
      | some p =>
        obtain ⟨m, rest⟩ := p
        obtain ⟨f, heq, hf⟩ := h.prompt hr
        have hlt := length_lt_of_waits h.toIncremental hb ⟨m, hf⟩
          (by rw [← List.append_assoc]; exact heq)
        have hlen := congrArg List.length heq
        simp at hlen
        exact ⟨frames, f, rest, by rw [heq, List.append_assoc], hframes, ⟨m, hf⟩, by omega, by omega⟩
  · -- the bytes that are refused begin in this chunk
    right
    obtain ⟨news, bad, hsplit, hnews, -, hbad⟩ := drain_refused h _ he
    rcases List.eq_nil_or_concat news with rfl | ⟨news, f, rfl⟩
    · rw [List.flatten_nil, List.nil_append] at hsplit
      rw [hsplit, drain_step h.toIncremental, h.more_error hbad] at hnext
      exact absurd rfl hnext
    · have hf : IsFrame read f := hnews f (by simp)
      refine ⟨frames ++ news, f, bad, post.flatten, ?_, ?_, hf, ⟨e, hbad⟩, ?_⟩
      · rw [hsplit]
        simp
      · intro g hg
        rcases List.mem_append.mp hg with hg | hg
        · exact hframes g hg
        · exact hnews g (by simp [hg])
      · -- the first new frame is longer than the bytes that waited
        have hlen := congrArg List.length hsplit
        obtain ⟨first, others, hfirst⟩ : ∃ first others, news.concat f = first :: others := by
          cases news with
          | nil => exact ⟨f, [], rfl⟩
          | cons g news => exact ⟨g, news.concat f, rfl⟩
        have hjoined : b ++ c = first ++ (others.flatten ++ bad) := by
          rw [hsplit, hfirst, List.flatten_cons, List.append_assoc]
        have hlt := length_lt_of_waits h.toIncremental hb (hnews first (by rw [hfirst]; simp)) hjoined
        rw [hfirst] at hlen
        simp at hlen
        omega

/-- Every cut hears all messages, or the stream can be cut so that some are lost. -/
theorem hears_all_of_not_lossy (h : Framed read) (hover : ¬ Overrun read max piece s)
    (hspoilt : ¬ Spoilt read piece s) (hcut : Cut piece s chunks) :
    (hearAll read max chunks).1 = (drain read s).1 := by
  obtain ⟨rfl, hsmall⟩ := hcut
  rcases hh : hearAll read max chunks with ⟨ms, _ | b⟩
  · obtain ⟨pre, c, post, b, rfl, hpre, hfail⟩ := fails_at chunks hh
    by_contra hne
    rcases lossy_of_hidden h hpre hfail (hsmall c (by simp)) (Ne.symm hne) with hlossy | hlossy
    · exact hover hlossy
    · exact hspoilt hlossy
  · rw [drain_of_heard h.toIncremental chunks hh]

/-! ## How they are lost -/

/-- Bytes one by one, then a chunk, then bytes one by one again. -/
def aroundChunk (before chunk after : List β) : List (List β) :=
  before.map (fun x => [x]) ++ chunk :: after.map fun x => [x]

theorem flatten_bytes (s : List β) : (s.map fun x => [x]).flatten = s := by
  rw [← List.flatMap_def]
  simp

theorem cut_bytes (hp : 0 < piece) (s : List β) : Cut piece s (s.map fun x => [x]) where
  whole := flatten_bytes s
  small c hc := by
    obtain ⟨x, -, rfl⟩ := List.mem_map.mp hc
    exact hp

theorem cut_around (hp : 0 < piece) (before after : List β) {chunk : List β}
    (hc : chunk.length ≤ piece) :
    Cut piece (before ++ chunk ++ after) (aroundChunk before chunk after) where
  whole := by
    rw [aroundChunk, List.flatten_append, List.flatten_cons, flatten_bytes, flatten_bytes,
      List.append_assoc]
  small c hm := by
    rcases List.mem_append.mp hm with hm | hm
    · exact (cut_bytes hp before).small c hm
    · rcases List.mem_cons.mp hm with rfl | hm
      · exact hc
      · exact (cut_bytes hp after).small c hm

/-- The last byte of a frame in a chunk that fails: the frame is not heard. -/
theorem hidden_frame (h : Framed read) (hroom : ∀ {b}, read b = .ok none → b.length < max)
    (hframes : ∀ g ∈ frames, IsFrame read g) {x : β} (hf : IsFrame read (f ++ [x]))
    (t after : List β) (hfail : max < f.length + 1 + t.length ∨ ∃ e, read t = .error e) :
    (hearAll read max (aroundChunk (frames.flatten ++ f) (x :: t) after)).1 ≠
      (drain read (frames.flatten ++ f ++ (x :: t) ++ after)).1 := by
  have hwait : read f = .ok none := waits_of_part h.toIncremental hf rfl (by simp)
  obtain ⟨ms, -, -, hd⟩ := drain_after_frames h.toIncremental frames hframes f
  rw [drain_waits h.toIncremental hwait] at hd
  simp at hd
  have hbefore := bytewise_hears h hroom (frames.flatten ++ f)
  rw [hd, heardOf] at hbefore
  obtain ⟨m, hm⟩ := hf
  have hread : ∀ c, read (f ++ (x :: t) ++ c) = .ok (some (m, t ++ c)) := by
    intro c
    have := h.more_message hm (t ++ c)
    rwa [List.append_cons f x t, List.append_assoc (f ++ [x])]
  have hchunk : hear read max (ms, some f) (x :: t) = (ms, none) := by
    rw [hear]
    split
    · rfl
    · rename_i hfit
      rcases hfail with hbig | ⟨e, he⟩
      · simp at hfit
        omega
      · have hr := hread []
        rw [List.append_nil, List.append_nil] at hr
        have ht : drain read t = ([], .error e) := by rw [drain_step h.toIncremental, he]
        rw [drain_step h.toIncremental, hr]
        simp only [ht]
  have hheard : (hearAll read max (aroundChunk (frames.flatten ++ f) (x :: t) after)) = (ms, none) := by
    unfold hearAll at hbefore ⊢
    rw [aroundChunk, List.foldl_append, hbefore, List.foldl_cons, hchunk, hear_none]
  have hall : (drain read (frames.flatten ++ f ++ (x :: t) ++ after)).1 =
      ms ++ m :: (drain read (t ++ after)).1 := by
    have hmore := drain_append h.toIncremental (frames.flatten ++ f) ((x :: t) ++ after)
    rw [hd, more, ← List.append_assoc f, drain_step h.toIncremental (f ++ (x :: t) ++ after),
      hread] at hmore
    rw [List.append_assoc, hmore]
  rw [hheard, hall]
  intro heq
  have hlen := congrArg List.length heq
  simp only [List.length_append, List.length_cons] at hlen
  omega

theorem exists_last (h : f ≠ []) : ∃ f' x, f = f' ++ [x] :=
  ⟨f.dropLast, f.getLast h, (List.dropLast_concat_getLast h).symm⟩

section
variable (h : Framed read) (hroom : ∀ {b}, read b = .ok none → b.length < max) (hp : 0 < piece)
include h hroom hp

/-- A stream that can lose messages loses some in one of its cuts. -/
theorem loses_of_lossy (hlossy : Overrun read max piece s ∨ Spoilt read piece s) :
    ∃ chunks, Cut piece s chunks ∧ (hearAll read max chunks).1 ≠ (drain read s).1 := by
  rcases hlossy with ⟨frames, f, rest, rfl, hframes, hf, hclose, hlong⟩ |
    ⟨frames, f, bad, rest, rfl, hframes, hf, hbad, hsmall⟩
  · obtain ⟨f', x, rfl⟩ := exists_last (hf.ne_nil h.toIncremental)
    simp at hclose hlong
    have hsplit : frames.flatten ++ (f' ++ [x]) ++ rest =
        frames.flatten ++ f' ++ (x :: rest.take (piece - 1)) ++ rest.drop (piece - 1) := by
      simp
    refine ⟨aroundChunk (frames.flatten ++ f') (x :: rest.take (piece - 1)) (rest.drop (piece - 1)),
      ?_, ?_⟩
    · rw [hsplit]
      apply cut_around hp
      simp
      omega
    · rw [hsplit]
      apply hidden_frame h hroom hframes hf
      simp
      omega
  · obtain ⟨f', x, rfl⟩ := exists_last (hf.ne_nil h.toIncremental)
    have hsplit : frames.flatten ++ (f' ++ [x]) ++ bad ++ rest =
        frames.flatten ++ f' ++ (x :: bad) ++ rest := by
      simp
    refine ⟨aroundChunk (frames.flatten ++ f') (x :: bad) rest, ?_, ?_⟩
    · rw [hsplit]
      apply cut_around hp
      omega
    · rw [hsplit]
      exact hidden_frame h hroom hframes hf bad rest (.inr hbad)

/-- All cuts of a stream are heard alike exactly when the stream is not lossy. -/
theorem cuts_agree_iff (s : List β) : (∀ chunks others, Cut piece s chunks → Cut piece s others →
      (hearAll read max chunks).1 = (hearAll read max others).1) ↔
    ¬ Overrun read max piece s ∧ ¬ Spoilt read piece s := by
  constructor
  · intro hagree
    by_contra hnot
    have hlossy : Overrun read max piece s ∨ Spoilt read piece s := by
      by_contra hboth
      exact hnot (not_or.mp hboth)
    obtain ⟨chunks, hcut, hne⟩ := loses_of_lossy h hroom hp hlossy
    refine hne ((hagree chunks _ hcut (cut_bytes hp s)).trans ?_)
    rw [bytewise_hears h hroom, heardOf_fst]
  · rintro ⟨hover, hspoilt⟩ chunks others hc ho
    rw [hears_all_of_not_lossy h hover hspoilt hc, hears_all_of_not_lossy h hover hspoilt ho]

end

/-! ## When all frames are delivered -/

/-- No chunk ends more than `max` bytes after the start of the frame it begins in. -/
def Roomy (max : Nat) (frames chunks : List (List β)) : Prop :=
  ∀ fs f gs pre c post, frames = fs ++ f :: gs → chunks = pre ++ c :: post →
    fs.flatten.length ≤ pre.flatten.length →
    pre.flatten.length < fs.flatten.length + f.length →
    pre.flatten.length + c.length ≤ fs.flatten.length + max

theorem roomy_of_short (h : chunks.flatten.length ≤ max) : Roomy max frames chunks := by
  rintro fs f gs pre c post - rfl - -
  rw [List.flatten_append, List.flatten_cons, List.length_append, List.length_append] at h
  omega

/-- The frame in which a position of the stream lies. -/
theorem frame_at (frames : List (List β)) {p : Nat} (hp : p < frames.flatten.length) :
    ∃ fs f gs, frames = fs ++ f :: gs ∧ fs.flatten.length ≤ p ∧
      p < fs.flatten.length + f.length := by
  induction frames generalizing p with
  | nil => simp at hp
  | cons f frames ih =>
    rw [List.flatten_cons, List.length_append] at hp
    rcases Nat.lt_or_ge p f.length with hlt | hge
    · exact ⟨[], f, frames, rfl, by simp, by simpa using hlt⟩
    · obtain ⟨fs, g, gs, rfl, hle, hlt⟩ := ih (p := p - f.length) (by omega)
      refine ⟨f :: fs, g, gs, rfl, ?_, ?_⟩ <;>
      · rw [List.flatten_cons, List.length_append]
        omega

/-- The buffer before a chunk that begins inside a frame holds the begun part of that frame. -/
theorem waits_in_frame (h : Incremental read) {fs gs : List (List β)} {t : List β}
    (hframes : ∀ g ∈ fs ++ f :: gs, IsFrame read g) (hst : s ++ t = (fs ++ f :: gs).flatten)
    (hle : fs.flatten.length ≤ s.length) (hlt : s.length < fs.flatten.length + f.length) :
    ∃ ms b, drain read s = (ms, .ok b) ∧ b.length = s.length - fs.flatten.length := by
  have hflat : s ++ t = fs.flatten ++ (f ++ gs.flatten) := by
    rw [hst, List.flatten_append, List.flatten_cons]
  have hpre : fs.flatten <+: s := List.prefix_of_prefix_length_le
    (hflat ▸ List.prefix_append _ _) (List.prefix_append s t) hle
  obtain ⟨b, rfl⟩ := hpre
  rw [List.append_assoc, List.append_cancel_left_eq] at hflat
  rw [List.length_append] at hlt
  have hbf : b <+: f := List.prefix_of_prefix_length_le
    (List.prefix_append b t) (hflat ▸ List.prefix_append _ _) (by omega)
  obtain ⟨c, rfl⟩ := hbf
  have hc : c ≠ [] := by
    rintro rfl
    rw [List.append_nil] at hlt
    omega
  have hwait := waits_of_part h (hframes (b ++ c) (by simp)) rfl hc
  obtain ⟨ms, -, -, hd⟩ := drain_after_frames h fs (fun g hg => hframes g (by simp [hg])) b
  rw [drain_waits h hwait] at hd
  exact ⟨_, b, hd, by rw [List.length_append]; omega⟩

theorem heard_before {pre post : List (List β)}
    (hh : hearAll read max (pre ++ post) = (ms, some b)) :
    ∃ ms' b', hearAll read max pre = (ms', some b') := by
  rcases hs : hearAll read max pre with ⟨ms', _ | b'⟩
  · unfold hearAll at hh hs
    rw [List.foldl_append, hs, hear_none] at hh
    cases hh
  · exact ⟨ms', b', rfl⟩

/-- Frames whose stream is cut are all delivered, with nothing left, exactly when there is room. -/
theorem delivered_iff (h : Framed read) (hframes : ∀ g ∈ frames, IsFrame read g)
    (hcut : chunks.flatten = frames.flatten) :
    hearAll read max chunks = ((drain read frames.flatten).1, some []) ↔ Roomy max frames chunks := by
  obtain ⟨all, -, hall, -⟩ := drain_after_frames h.toIncremental frames hframes []
  rw [hall]
  constructor
  · rintro hh fs f gs pre c post rfl rfl hle hlt
    obtain ⟨ms, b, hpre⟩ := heard_before hh
    have hfit : b.length + c.length ≤ max := by
      rw [List.append_cons] at hh
      obtain ⟨ms', b', hnext⟩ := heard_before hh
      rw [hearAll_concat, hpre, hear] at hnext
      split at hnext
      · cases hnext
      · omega
    obtain ⟨ms', b', hd, hlen⟩ := waits_in_frame h.toIncremental hframes
      (by rw [← hcut, List.flatten_append]) hle hlt
    rw [drain_of_heard h.toIncremental pre hpre] at hd
    cases hd
    omega
  · intro hroomy
    rcases hh : hearAll read max chunks with ⟨ms, _ | b⟩
    · obtain ⟨pre, c, post, b, rfl, hpre, hfail⟩ := fails_at chunks hh
      have hdrain := drain_of_heard h.toIncremental pre hpre
      have hlen := congrArg List.length hcut
      simp only [List.flatten_append, List.flatten_cons, List.length_append] at hlen
      obtain ⟨-, hbig | ⟨new, e, he⟩⟩ := hear_fails hfail
      · rcases Nat.lt_or_ge pre.flatten.length frames.flatten.length with hlt | hge
        · obtain ⟨fs, f, gs, rfl, hle, hlt⟩ := frame_at frames hlt
          obtain ⟨ms', b', hd, hb⟩ := waits_in_frame h.toIncremental hframes
            (by rw [← hcut, List.flatten_append]) hle hlt
          rw [hdrain] at hd
          cases hd
          have := hroomy fs f gs pre c post rfl rfl hle hlt
          omega
        · -- all frames came before, so the chunk is empty and so is the buffer
          have hpost : pre.flatten = frames.flatten := by
            rw [← hcut, List.flatten_append, List.flatten_cons,
              List.eq_nil_of_length_eq_zero (l := c) (by omega),
              List.eq_nil_of_length_eq_zero (l := post.flatten) (by omega)]
            simp
          rw [hpost, hall] at hdrain
          cases hdrain
          rw [List.length_nil] at hbig
          omega
      · have hwhole := drain_append h.toIncremental (pre.flatten ++ c) post.flatten
        rw [drain_append h.toIncremental pre.flatten c, hdrain, more, he, more] at hwhole
        rw [← hcut, List.flatten_append, List.flatten_cons, ← List.append_assoc, hwhole] at hall
        cases hall
    · have hdrain := drain_of_heard h.toIncremental chunks hh
      rw [hcut, hall] at hdrain
      cases hdrain
      rfl

end Chunks
