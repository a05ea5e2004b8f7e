-- The message format is canonical. Bytes that decode are the bytes that the
-- message encodes to, up to feature bits this build does not know; a message
-- that encodes comes back, unless one of its fields is outside what `decode`
-- accepts.
import Multiplex.ScreenProtocol.FormatLaws

open Bytes multiplex_screen_codec

namespace multiplex_screen_protocol

/-! ## The bounds that only `decode` checks -/

def Message.version? : Message → Option UInt16
  | .Hello hello => some hello.version
  | .Welcome welcome => some welcome.version
  | _ => none

def Message.coordinates : Message → List UInt32
  | .PointerMove _ x y | .PointerButton _ x y _ _ | .Scroll _ x y _ _ => [x, y]
  | _ => []

def Message.rects : Message → List WireRect
  | .Viewport viewport => [viewport.rect]
  | .MotionRegion _ rect => rect.toList
  | .PanePlacements _ panes => panes.map PanePlacement.rect
  | .VideoConfig config => [config.rect]
  | _ => []

def Message.strings : Message → List String
  | .Welcome welcome => welcome.surfaces.map SurfaceInfo.name
  | .Goodbye reason => [reason]
  | .Text _ text => [text]
  | _ => []

structure Message.InBounds (m : Message) : Prop where
  version : ∀ v ∈ m.version?, supported v = true
  scale : ∀ v, m = .Viewport v → v.scale_milli ≠ 0
  coordinates : ∀ c ∈ m.coordinates, c.toNat < MAX_SURFACE_DIMENSION
  rects : ∀ r ∈ m.rects, rect_ok r = true
  reason : ∀ reason, m = .Goodbye reason → reason.utf8ByteSize ≠ 0
  strings : ∀ s ∈ m.strings, plain_text s = true

theorem rect_ok_iff (r : WireRect) :
    rect_ok r = true ↔ r.rect.is_empty = false ∧ surface_limit.contains_rect r.rect = true := by
  simp [rect_ok]

/-- The message with its features cleared when it is a version 1 hello or welcome. -/
def Message.withoutLegacyFeatures : Message → Message
  | .Hello hello => .Hello { hello with features := features_of hello.version hello.features.bits }
  | .Welcome welcome =>
    .Welcome { welcome with features := features_of welcome.version welcome.features.bits }
  | m => m

variable (version : UInt16)

theorem features_of_known (f : FeatureSet) : features_of version f.bits =
      if version ≥ FEATURES_PROTOCOL_VERSION then f else FeatureSet.none := by
  unfold features_of FeatureSet.from_bits
  simp only [f.known]

/-! ## What `encode` writes -/

theorem mapM_ok_iff {ε α β : Type} {f : α → Except ε β} {ok : α → Prop} {g : α → β}
    (h : ∀ a b, f a = .ok b ↔ ok a ∧ b = g a) (l : List α) (out : List β) :
    l.mapM f = .ok out ↔ (∀ a ∈ l, ok a) ∧ out = l.map g := by
  induction l generalizing out with
  | nil =>
    simp only [List.not_mem_nil, false_implies, implies_true, true_and]
    exact ⟨fun h => by cases h; rfl, fun h => by rw [h]; rfl⟩
  | cons a l ih =>
    rw [List.mapM_cons]
    constructor
    · intro hok
      cases ha : f a with
      | error e => rw [ha] at hok; cases hok
      | ok b =>
        rw [ha] at hok
        cases hl : l.mapM f with
        | error e => rw [hl] at hok; cases hok
        | ok bs =>
          rw [hl] at hok
          cases hok
          obtain ⟨h1, rfl⟩ := (h a b).mp ha
          obtain ⟨h2, rfl⟩ := (ih bs).mp hl
          exact ⟨by simpa using ⟨h1, h2⟩, rfl⟩
    · rintro ⟨hall, rfl⟩
      rw [(h a (g a)).mpr ⟨hall a (by simp), rfl⟩,
        (ih (l.map g)).mpr ⟨fun b hb => hall b (by simp [hb]), rfl⟩]
      rfl

theorem write_string_ok_iff (text : String) (limit : Nat) (out : List UInt8) :
    write_string text limit = .ok out ↔ text.utf8ByteSize ≤ limit ∧ out = string_bytes text := by
  unfold write_string
  split
  · simp
    omega
  · simp
    constructor
    · rintro rfl
      exact ⟨by omega, rfl⟩
    · rintro ⟨-, rfl⟩
      rfl

theorem write_surface_ok_iff (s : SurfaceInfo) (out : List UInt8) :
    write_surface s = .ok out ↔ s.name.utf8ByteSize ≤ MAX_NAME_BYTES ∧ out = surface_bytes s := by
  unfold write_surface
  constructor
  · intro h
    cases hname : write_string s.name MAX_NAME_BYTES with
    | error e => rw [hname] at h; cases h
    | ok name =>
      rw [hname] at h
      cases h
      obtain ⟨hlen, rfl⟩ := (write_string_ok_iff _ _ _).mp hname
      exact ⟨hlen, by simp [surface_bytes]⟩
  · rintro ⟨hlen, rfl⟩
    rw [(write_string_ok_iff _ _ _).mpr ⟨hlen, rfl⟩]
    simp [surface_bytes, bind, Except.bind, pure, Except.pure]

theorem write_pane_ok_iff (p : PanePlacement) (out : List UInt8) :
    write_pane p = .ok out ↔ (p.cell_width ≠ 0 ∧ p.cell_height ≠ 0) ∧ out = pane_bytes p := by
  unfold write_pane pane_bytes
  split
  · rename_i hbad
    simp
    tauto
  · rename_i hgood
    simp at hgood
    simp [hgood]
    exact eq_comm

/-! ## What `decode` reads -/

theorem decode_ok_iff_run (bytes : List UInt8) (m : Message) :
    Message.decode bytes = .ok m ↔ ∃ kind body, bytes = kind :: body ∧
      (read_message_body kind).run body = .ok (m, []) := by
  unfold Message.decode
  constructor
  · intro h
    cases hr : read_message.run bytes with
    | error e => rw [hr] at h; cases h
    | ok r =>
      obtain ⟨m', rest⟩ := r
      rw [hr] at h
      obtain ⟨kind, body, hkind, hbody⟩ := run_bind_ok hr
      obtain ⟨-, rfl⟩ := canonical_u8.only _ _ _ hkind
      cases rest with
      | nil =>
        cases h
        exact ⟨kind, body, rfl, hbody⟩
      | cons a rest => cases h
  · rintro ⟨kind, body, rfl, hbody⟩
    have hread : read_message.run (kind :: body) = .ok (m, []) :=
      (run_bind_iff _ _ _ _ _).mpr ⟨kind, body, rfl, hbody⟩
    rw [hread]
    rfl

section

variable {body b : List UInt8} {m : Message} {surface : UInt32}

variable {kind : UInt8} {welcome : Welcome} {reason text : String} {panes : List PanePlacement}
  {payload : List UInt8}

theorem decode_error (h : Refuses (read_message_body kind) body) :
    ∃ e, Message.decode (kind :: body) = .error e := by
  obtain ⟨e, he⟩ := h []
  rw [List.append_nil] at he
  have hread : read_message.run (kind :: body) = .error e := by
    have hbyte : Accepts reader_u8 [kind] kind := canonical_u8.accepts kind trivial
    exact (hbyte.run_bind body).trans he
  exact ⟨e, by rw [Message.decode, hread]; rfl⟩

theorem inBounds_of (hcoordinates : ∀ c ∈ m.coordinates, c.toNat < MAX_SURFACE_DIMENSION)
    (hrects : ∀ r ∈ m.rects, rect_ok r = true) (h1 : m.version? = none := by rfl)
    (h4 : m.strings = [] := by rfl) (h5 : ∀ v, m ≠ .Viewport v := by simp)
    (h6 : ∀ r, m ≠ .Goodbye r := by simp) : m.InBounds where
  version := by simp [h1]
  scale v hv := absurd hv (h5 v)
  coordinates := hcoordinates
  rects := hrects
  reason r hr := absurd hr (h6 r)
  strings := by simp [h4]

theorem inBounds_free (h1 : m.version? = none := by rfl) (h2 : m.coordinates = [] := by rfl)
    (h3 : m.rects = [] := by rfl) (h4 : m.strings = [] := by rfl)
    (h5 : ∀ v, m ≠ .Viewport v := by simp) (h6 : ∀ r, m ≠ .Goodbye r := by simp) : m.InBounds :=
  inBounds_of (by simp [h2]) (by simp [h3]) h1 h4 h5 h6

theorem run_batch (body : List UInt8) (b : SessionBatch) :
    read_batch.run body = .ok (b, []) ↔ Batch.decode body = .ok b.val := by
  have htake : Accepts (reader_take body.length) body body :=
    (canonical_takeBytes ProtocolError.Malformed body.length).accepts body rfl
  have hrun := htake []
  rw [List.append_nil] at hrun
  unfold read_batch
  rw [StateT.run_bind, StateT.run_get, pure_bind, StateT.run_bind, hrun]
  simp only [bind, Except.bind]
  split
  · rename_i e he
    simp [he]
    intro h
    cases h
  · rename_i batch hb
    rw [run_pure_iff]
    constructor
    · rintro ⟨rfl, -⟩
      exact hb
    · intro h
      have heq : batch = b.val := Except.ok.inj (hb.symm.trans h)
      exact ⟨Subtype.ext heq.symm, rfl⟩

theorem encode_batch_ok_iff (b : SessionBatch) (body : List UInt8) :
    (Message.Batch b).encode = .ok (BATCH :: body) ↔ Batch.decode body = .ok b.val := by
  have hcodec : b.val.encode = .ok body ↔ Batch.decode body = .ok b.val := by
    rw [decode_ok_iff, encode_ok_iff]
    constructor
    · rintro ⟨h1, h2, h3, h4⟩
      exact ⟨⟨b.property, h1, h2⟩, h3, h4⟩
    · rintro ⟨⟨-, h1, h2⟩, h3, h4⟩
      exact ⟨h1, h2, h3, h4⟩
  rw [← hcodec]
  unfold Message.encode
  simp only
  cases b.val.encode with
  | error e => simp
  | ok bytes => simp

/-- What the reader of a body is to give: a message in bounds, that encodes to the bytes without the
unknown feature bits. -/
def ReadBack (kind : UInt8) (body : List UInt8) (m : Message) : Prop :=
  m.InBounds ∧ m.withoutLegacyFeatures = m ∧
    m.encode = .ok (clearUnknownFeatures (kind :: body))

theorem features_of_twice (bits : UInt32) :
    features_of version (features_of version bits).bits = features_of version bits := by
  rw [features_of_known]
  unfold features_of
  split <;> rfl

theorem hello_only {hello : Hello} (h : read_hello.run body = .ok (hello, [])) :
    ReadBack HELLO body (.Hello hello) := by
  obtain ⟨hv, bits, hf, rfl⟩ := (run_hello _ _ _).mp h
  refine ⟨⟨by simpa [Message.version?] using hv, nofun, nofun, nofun, nofun, nofun⟩, ?_, ?_⟩
  · rw [Message.withoutLegacyFeatures, hf, features_of_twice, ← hf]
  · have hhead : hello.head = write_u16 hello.version ++ _ := rfl
    rw [Message.encode, hf, write_features_of, List.append_nil, clear_features (.inl rfl) _ hhead]

theorem welcome_only (h : read_welcome.run body = .ok (welcome, [])) :
    ReadBack WELCOME body (.Welcome welcome) := by
  obtain ⟨hv, hn, hl, bits, hf, rfl⟩ := (run_welcome _ _ _).mp h
  have hsurfaces : welcome.surfaces.mapM write_surface =
      .ok (welcome.surfaces.map surface_bytes) :=
    (mapM_ok_iff write_surface_ok_iff _ _).mpr ⟨fun s hs => (hl s hs).1, rfl⟩
  refine ⟨⟨by simpa [Message.version?] using hv, nofun, nofun, nofun, nofun, ?_⟩, ?_, ?_⟩
  · intro s hs
    obtain ⟨i, hi, rfl⟩ := List.mem_map.mp hs
    exact (hl i hi).2.2
  · rw [Message.withoutLegacyFeatures, hf, features_of_twice, ← hf]
  · have hhead : welcome.head = write_u16 welcome.version ++ _ := rfl
    rw [Message.encode, if_neg (by omega), hsurfaces, List.append_nil,
      clear_features (.inr rfl) _ hhead, hf, write_features_of]
    simp [bind, Except.bind, pure, Except.pure, Welcome.head, List.flatMap]

theorem plain_back (hin : m.InBounds) (hlegacy : m.withoutLegacyFeatures = m := by rfl)
    (hencode : m.encode = .ok (kind :: body) := by rfl)
    (h1 : kind ≠ HELLO := by decide) (h2 : kind ≠ WELCOME := by decide) : ReadBack kind body m :=
  ⟨hin, hlegacy, by rw [clear_other body h1 h2]; exact hencode⟩

section

variable {α β : Type} {reader : MessageReader α} {write : α → List UInt8} {ok : α → Prop}
  (hc : Canonical reader write ok) {f : α → Message}
include hc

theorem one_back (h : (reader >>= fun a => pure (f a)).run body = .ok (m, []))
    (back : ∀ a, ok a → ReadBack kind (write a) (f a)) : ReadBack kind body m := by
  obtain ⟨a, ha, rfl, rfl⟩ := (run_one hc _ _ _ _).mp h
  rw [List.append_nil]
  exact back a ha

theorem one_read {a : α} (ha : ok a) :
    (reader >>= fun a => pure (f a)).run (write a) = .ok (f a, []) :=
  (run_one hc _ _ _ _).mpr ⟨a, ha, rfl, (List.append_nil _).symm⟩

variable {next : α → MessageReader β} {write' : β → List UInt8} {ok' : α → β → Prop}
  (hc' : ∀ a, Canonical (next a) write' (ok' a)) {g : α → β → Message}
include hc'

theorem two_back (h : (reader >>= fun a => next a >>= fun b => pure (g a b)).run body = .ok (m, []))
    (back : ∀ a b, ok a → ok' a b → ReadBack kind (write a ++ write' b) (g a b)) :
    ReadBack kind body m := by
  obtain ⟨a, b, ⟨ha, hb⟩, rfl, rfl⟩ := (run_two hc hc' _ _ _ _).mp h
  rw [List.append_nil]
  exact back a b ha hb

theorem two_read {a : α} {b : β} (ha : ok a) (hb : ok' a b) :
    (reader >>= fun a => next a >>= fun b => pure (g a b)).run (write a ++ write' b) =
      .ok (g a b, []) :=
  (run_two hc hc' _ _ _ _).mpr ⟨a, b, ⟨ha, hb⟩, rfl, by rw [List.append_nil]⟩

variable {γ : Type} {last : α → β → MessageReader γ} {write'' : γ → List UInt8}
  {ok'' : α → β → γ → Prop} (hc'' : ∀ a b, Canonical (last a b) write'' (ok'' a b))
  {k : α → β → γ → Message}
include hc''

theorem three_back (h : (reader >>= fun a => next a >>= fun b => last a b >>= fun c =>
      pure (k a b c)).run body = .ok (m, []))
    (back : ∀ a b c, ok a → ok' a b → ok'' a b c →
      ReadBack kind (write a ++ (write' b ++ write'' c)) (k a b c)) : ReadBack kind body m := by
  rw [run_field hc] at h
  obtain ⟨a, rest, ha, rfl, h⟩ := h
  obtain ⟨b, c, ⟨hb, hc⟩, rfl, rfl⟩ := (run_two (hc' a) (hc'' a) _ _ _ _).mp h
  rw [List.append_nil]
  exact back a b c ha hb hc

theorem three_read {a : α} {b : β} {c : γ} (ha : ok a) (hb : ok' a b) (hd : ok'' a b c) :
    (reader >>= fun a => next a >>= fun b => last a b >>= fun c => pure (k a b c)).run
      (write a ++ (write' b ++ write'' c)) = .ok (k a b c, []) :=
  (run_field hc _ _ _ _).mpr ⟨a, _, ha, rfl, two_read (hc' a) (hc'' a) hb hd⟩

end

theorem run_point (next : UInt32 → UInt32 → UInt32 → MessageReader Message) (rest : List UInt8) :
    (read_u32 >>= fun surface => read_coordinate >>= fun x => read_coordinate >>= fun y =>
      next surface x y).run body = .ok (m, rest) ↔
      ∃ surface x y middle, (∀ c ∈ [x, y], c.toNat < MAX_SURFACE_DIMENSION) ∧
        body = write_u32 surface ++ (write_u32 x ++ (write_u32 y ++ middle)) ∧
        (next surface x y).run middle = .ok (m, rest) := by
  simp only [run_field canonical_u32, run_field canonical_coordinate]
  constructor
  · rintro ⟨surface, _, -, rfl, x, _, hx, rfl, y, middle, hy, rfl, hrest⟩
    have hpoint : ∀ c ∈ [x, y], c.toNat < MAX_SURFACE_DIMENSION := by
      simpa using ⟨of_decide_eq_true hx.2, of_decide_eq_true hy.2⟩
    exact ⟨surface, x, y, middle, hpoint, rfl, hrest⟩
  · rintro ⟨surface, x, y, middle, hpoint, rfl, hrest⟩
    exact ⟨surface, _, trivial, rfl, x, _, ⟨trivial, decide_eq_true (hpoint x (by simp))⟩, rfl,
      y, middle, ⟨trivial, decide_eq_true (hpoint y (by simp))⟩, rfl, hrest⟩

theorem viewport_only {viewport : Viewport} (h : read_viewport.run body = .ok (viewport, [])) :
    ReadBack VIEWPORT body (.Viewport viewport) := by
  obtain ⟨⟨hr, hs⟩, rfl⟩ := (run_viewport _ _ _).mp h
  rw [List.append_nil]
  refine plain_back
    ⟨by simp [Message.version?], ?_, by simp [Message.coordinates],
      by simpa [Message.rects] using hr, by simp, by simp [Message.strings]⟩
  rintro v ⟨⟩
  exact hs

theorem goodbye_only (hok : string_ok MAX_REASON_BYTES false reason) :
    ReadBack GOODBYE (string_bytes reason) (.Goodbye reason) := by
  have hstring : write_string reason MAX_REASON_BYTES = .ok (string_bytes reason) :=
    (write_string_ok_iff _ _ _).mpr ⟨hok.1, rfl⟩
  refine plain_back
    ⟨nofun, nofun, nofun, nofun, ?_, by simpa [Message.strings] using hok.2.2⟩ rfl ?_
  · rintro r ⟨⟩
    simpa using hok.2.1
  · rw [Message.encode, hstring]
    rfl

theorem text_only (hok : string_ok MAX_TEXT_BYTES false text) :
    ReadBack TEXT (write_u32 surface ++ string_bytes text) (.Text surface text) := by
  have hstring : write_string text MAX_TEXT_BYTES = .ok (string_bytes text) :=
    (write_string_ok_iff _ _ _).mpr ⟨hok.1, rfl⟩
  have hsome : text.utf8ByteSize ≠ 0 := by simpa using hok.2.1
  refine plain_back
    ⟨nofun, nofun, nofun, nofun, nofun, by simpa [Message.strings] using hok.2.2⟩ rfl ?_
  rw [Message.encode, if_neg hsome, hstring]
  rfl

theorem panes_only (hlen : panes.length ≤ MAX_PANES)
    (hok : ∀ p ∈ panes, rect_ok p.rect = true ∧ p.cell_width ≠ 0 ∧ p.cell_height ≠ 0) :
    ReadBack PANE_PLACEMENTS
      (write_u32 surface ++ ([UInt8.ofNat panes.length] ++ panes.flatMap pane_bytes))
      (.PanePlacements surface panes) := by
  have hpanes : panes.mapM write_pane = .ok (panes.map pane_bytes) :=
    (mapM_ok_iff write_pane_ok_iff _ _).mpr ⟨fun p hp => (hok p hp).2, rfl⟩
  refine plain_back ⟨nofun, nofun, nofun, ?_, nofun, nofun⟩ rfl ?_
  · intro r hr
    obtain ⟨p, hp, rfl⟩ := List.mem_map.mp hr
    exact (hok p hp).1
  · rw [Message.encode, if_neg (by omega), hpanes]
    rfl

theorem payload_fits {limit : Nat} (hp : 0 < payload.length) (hl : payload.length ≤ limit) :
    ¬ (payload.isEmpty = true ∨ payload.length > limit) := by
  rw [List.isEmpty_iff, ← List.length_eq_zero_iff]
  omega

theorem parity_fits {shards : UInt8} (hd : shards ≠ 0) (hp : 0 < payload.length)
    (hl : payload.length ≤ MAX_PARITY_BYTES) :
    ¬ (payload.isEmpty = true ∨ payload.length > MAX_PARITY_BYTES ∨ shards = 0) := by
  rw [List.isEmpty_iff, ← List.length_eq_zero_iff]
  simp only [hd, or_false]
  omega

theorem run_choice {p : Prop} [Decidable p] {x y : MessageReader Message} {body : List UInt8}
    {r : Message × List UInt8} (h : (if p then x else y).run body = .ok r) :
    p ∧ x.run body = .ok r ∨ y.run body = .ok r := by
  by_cases hp : p
  · rw [if_pos hp] at h
    exact .inl ⟨hp, h⟩
  · rw [if_neg hp] at h
    exact .inr h

/-- What the reader of a body gives is in bounds, and encodes to those bytes without the unknown
feature bits. -/
theorem body_only (h : (read_message_body kind).run body = .ok (m, [])) : ReadBack kind body m := by
  -- one case for each kind byte, in the order of the source
  unfold read_message_body at h
  rcases run_choice h with ⟨rfl, hb⟩ | h
  · obtain ⟨hello, middle, hread, hrest⟩ := run_bind_ok hb
    obtain ⟨rfl, rfl⟩ := pure_ok hrest
    exact hello_only hread
  rcases run_choice h with ⟨rfl, hb⟩ | h
  · obtain ⟨welcome, middle, hread, hrest⟩ := run_bind_ok hb
    obtain ⟨rfl, rfl⟩ := pure_ok hrest
    exact welcome_only hread
  rcases run_choice h with ⟨rfl, hb⟩ | h
  · exact one_back (canonical_string _ (by decide) _) hb fun _ hok => goodbye_only hok
  rcases run_choice h with ⟨rfl, hb⟩ | h
  · exact two_back canonical_u32 (fun _ => canonical_profile) hb fun _ _ _ _ =>
      plain_back inBounds_free
  rcases run_choice h with ⟨rfl, hb⟩ | h
  · exact one_back canonical_u32 hb fun _ _ => plain_back inBounds_free
  rcases run_choice h with ⟨rfl, hb⟩ | h
  · obtain ⟨viewport, middle, hread, hrest⟩ := run_bind_ok hb
    obtain ⟨rfl, rfl⟩ := pure_ok hrest
    exact viewport_only hread
  rcases run_choice h with ⟨rfl, hb⟩ | h
  · exact one_back canonical_resume hb fun _ _ => plain_back inBounds_free
  rcases run_choice h with ⟨rfl, hb⟩ | h
  · exact three_back canonical_u32 (fun _ => canonical_u32) (fun _ _ => canonical_u64) hb
      fun _ _ _ _ _ _ => plain_back inBounds_free
  rcases run_choice h with ⟨rfl, hb⟩ | h
  · refine two_back (canonical_count MAX_PANES (by decide))
      (fun n => canonical_readMany (canonical_fixed 16) n) hb fun n sessions hn hsessions => ?_
    obtain ⟨rfl, -⟩ := hsessions
    exact plain_back inBounds_free rfl (by rw [Message.encode, if_neg (by omega)]; rfl)
  rcases run_choice h with ⟨rfl, hb⟩ | h
  · obtain ⟨batch, middle, hread, hrest⟩ := run_bind_ok hb
    obtain ⟨rfl, rfl⟩ := pure_ok hrest
    exact plain_back inBounds_free rfl
      ((encode_batch_ok_iff batch body).mpr ((run_batch body batch).mp hread))
  rcases run_choice h with ⟨rfl, hb⟩ | h
  · exact two_back canonical_u32 (fun _ => canonical_optional_rect) hb fun _ _ _ hr => plain_back
      (inBounds_of (by simp [Message.coordinates]) (by simpa [Message.rects] using hr))
  rcases run_choice h with ⟨rfl, hb⟩ | h
  · exact one_back canonical_holder hb fun _ _ => plain_back inBounds_free
  rcases run_choice h with ⟨rfl, hb⟩ | h
  · refine three_back canonical_u32 (fun _ => canonical_count MAX_PANES (by decide))
      (fun _ n => canonical_readMany canonical_pane n) hb fun surface n panes _ hn hpanes => ?_
    obtain ⟨rfl, hok⟩ := hpanes
    exact panes_only hn hok
  rcases run_choice h with ⟨rfl, hb⟩ | h
  · rw [run_pure_iff] at hb
    obtain ⟨rfl, rfl⟩ := hb
    exact plain_back inBounds_free
  rcases run_choice h with ⟨rfl, hb⟩ | h
  · rw [run_pure_iff] at hb
    obtain ⟨rfl, rfl⟩ := hb
    exact plain_back inBounds_free
  rcases run_choice h with ⟨rfl, hb⟩ | h
  · obtain ⟨surface, x, y, rest, hpoint, rfl, hrest⟩ := (run_point _ _).mp hb
    obtain ⟨rfl, rfl⟩ := (run_pure_iff _ _ _ _).mp hrest
    rw [List.append_nil]
    exact plain_back (inBounds_of hpoint (by simp [Message.rects]))
  rcases run_choice h with ⟨rfl, hb⟩ | h
  · obtain ⟨surface, x, y, rest, hpoint, rfl, hrest⟩ := (run_point _ _).mp hb
    obtain ⟨button, pressed, -, rfl, rfl⟩ :=
      (run_two canonical_button (fun _ => canonical_bool) _ _ _ _).mp hrest
    exact plain_back (inBounds_of hpoint (by simp [Message.rects]))
  rcases run_choice h with ⟨rfl, hb⟩ | h
  · obtain ⟨surface, x, y, rest, hpoint, rfl, hrest⟩ := (run_point _ _).mp hb
    obtain ⟨dx, dy, -, rfl, rfl⟩ := (run_two canonical_u32 (fun _ => canonical_u32) _ _ _ _).mp hrest
    exact plain_back (inBounds_of hpoint (by simp [Message.rects])) rfl
      (by rw [List.append_nil]; simp [Message.encode])
  rcases run_choice h with ⟨rfl, hb⟩ | h
  · exact one_back canonical_key hb fun _ _ => plain_back inBounds_free
  rcases run_choice h with ⟨rfl, hb⟩ | h
  · exact two_back canonical_u32 (fun _ => canonical_string _ (by decide) _) hb fun _ _ _ hok =>
      text_only hok
  rcases run_choice h with ⟨rfl, hb⟩ | h
  · refine one_back canonical_config hb fun config hok => plain_back
      (inBounds_of (by simp [Message.coordinates]) (by simpa [Message.rects] using hok.1)) rfl ?_
    rw [Message.encode, if_neg (payload_fits hok.2.1 hok.2.2)]
    rfl
  rcases run_choice h with ⟨rfl, hb⟩ | h
  · exact one_back canonical_video_frame hb fun _ hok => plain_back inBounds_free rfl
      (by rw [Message.encode, VideoFrame.encode, if_neg (payload_fits hok.1 hok.2)])
  rcases run_choice h with ⟨rfl, hb⟩ | h
  · exact one_back canonical_parity hb fun _ hok => plain_back inBounds_free rfl
      (by rw [Message.encode, if_neg (parity_fits hok.1 hok.2.1 hok.2.2)]; rfl)
  rcases run_choice h with ⟨rfl, hb⟩ | h
  · refine three_back canonical_u32 (fun _ => canonical_count MAX_VIDEO_TOKENS (by decide))
      (fun _ n => canonical_readMany canonical_u32 n) hb fun surface n tokens _ hn htokens => ?_
    obtain ⟨rfl, -⟩ := htokens
    exact plain_back inBounds_free rfl (by rw [Message.encode, if_neg (by omega)]; rfl)
  rcases run_choice h with ⟨rfl, hb⟩ | h
  · exact two_back canonical_u32 (fun _ => canonical_u64) hb fun _ _ _ _ => plain_back inBounds_free
  rcases run_choice h with ⟨rfl, hb⟩ | h
  · exact two_back canonical_u64 (fun _ => canonical_u64) hb fun _ _ _ _ => plain_back inBounds_free
  rcases run_choice h with ⟨rfl, hb⟩ | h
  · exact three_back canonical_u64 (fun _ => canonical_u64) (fun _ _ => canonical_u64) hb
      fun _ _ _ _ _ _ => plain_back inBounds_free
  cases h

/-! ## A message in bounds comes back -/

theorem welcome_encoded (h : (Message.Welcome welcome).encode = .ok b) :
    welcome.surfaces.length ≤ MAX_SURFACES ∧
      (∀ s ∈ welcome.surfaces, s.name.utf8ByteSize ≤ MAX_NAME_BYTES) ∧
      b = WELCOME :: (welcome.head ++ write_features welcome.version welcome.features.bits) := by
  rw [Message.encode] at h
  split at h
  · cases h
  · rename_i hlen
    cases hm : welcome.surfaces.mapM write_surface with
    | error e => rw [hm] at h; cases h
    | ok written =>
      rw [hm] at h
      cases h
      obtain ⟨hnames, rfl⟩ := (mapM_ok_iff write_surface_ok_iff _ _).mp hm
      refine ⟨by omega, hnames, ?_⟩
      simp [Welcome.head, List.flatMap]

theorem goodbye_encoded (h : (Message.Goodbye reason).encode = .ok b) :
    reason.utf8ByteSize ≤ MAX_REASON_BYTES ∧ b = GOODBYE :: string_bytes reason := by
  rw [Message.encode] at h
  cases hw : write_string reason MAX_REASON_BYTES with
  | error e => rw [hw] at h; cases h
  | ok written =>
    rw [hw] at h
    cases h
    obtain ⟨hlen, rfl⟩ := (write_string_ok_iff _ _ _).mp hw
    exact ⟨hlen, rfl⟩

theorem text_encoded (h : (Message.Text surface text).encode = .ok b) :
    text.utf8ByteSize ≠ 0 ∧ text.utf8ByteSize ≤ MAX_TEXT_BYTES ∧
      b = TEXT :: (write_u32 surface ++ string_bytes text) := by
  rw [Message.encode] at h
  split at h
  · cases h
  · rename_i hsome
    cases hw : write_string text MAX_TEXT_BYTES with
    | error e => rw [hw] at h; cases h
    | ok written =>
      rw [hw] at h
      cases h
      obtain ⟨hlen, rfl⟩ := (write_string_ok_iff _ _ _).mp hw
      exact ⟨hsome, hlen, rfl⟩

theorem panes_encoded (h : (Message.PanePlacements surface panes).encode = .ok b) :
    panes.length ≤ MAX_PANES ∧ (∀ p ∈ panes, p.cell_width ≠ 0 ∧ p.cell_height ≠ 0) ∧
      b = PANE_PLACEMENTS :: (write_u32 surface ++ ([UInt8.ofNat panes.length] ++
        panes.flatMap pane_bytes)) := by
  rw [Message.encode] at h
  split at h
  · cases h
  · rename_i hlen
    cases hm : panes.mapM write_pane with
    | error e => rw [hm] at h; cases h
    | ok written =>
      rw [hm] at h
      cases h
      obtain ⟨hcells, rfl⟩ := (mapM_ok_iff write_pane_ok_iff _ _).mp hm
      exact ⟨by omega, hcells, rfl⟩

theorem config_encoded {config : VideoConfig} (h : (Message.VideoConfig config).encode = .ok b) :
    0 < config.payload.length ∧ config.payload.length ≤ MAX_VIDEO_FRAME_BYTES ∧
      b = VIDEO_CONFIG :: config_bytes config := by
  rw [Message.encode] at h
  split at h
  · cases h
  · rename_i hfit
    rw [not_or, List.isEmpty_iff, ← List.length_eq_zero_iff] at hfit
    cases h
    exact ⟨by omega, by omega, rfl⟩

theorem parity_encoded {parity : Parity} (h : (Message.Parity parity).encode = .ok b) :
    parity.data_shards ≠ 0 ∧ 0 < parity.payload.length ∧
      parity.payload.length ≤ MAX_PARITY_BYTES ∧ b = PARITY :: parity_bytes parity := by
  rw [Message.encode] at h
  split at h
  · cases h
  · rename_i hfit
    rw [not_or, not_or, List.isEmpty_iff, ← List.length_eq_zero_iff] at hfit
    cases h
    exact ⟨hfit.2.2, by omega, by omega, rfl⟩

theorem counted_encoded {n limit : Nat} {written : List UInt8}
    (h : (if n > limit then .error ProtocolError.Malformed else .ok written) = Except.ok b) :
    n ≤ limit ∧ b = written := by
  split at h
  · cases h
  · cases h
    exact ⟨by omega, rfl⟩

theorem in_limit {c : UInt32} (h : c.toNat < MAX_SURFACE_DIMENSION) :
    True ∧ decide (c.toNat < MAX_SURFACE_DIMENSION) = true := ⟨trivial, decide_eq_true h⟩

theorem headed {holds : UInt8 → List UInt8 → Prop} (h : holds kind body) :
    ∃ k rest, kind :: body = k :: rest ∧ holds k rest := ⟨_, _, rfl, h⟩

theorem hello_read {hello : Hello} (hin : (Message.Hello hello).InBounds) :
    (read_message_body HELLO).run (hello.head ++ write_features hello.version hello.features.bits) =
      .ok ((Message.Hello hello).withoutLegacyFeatures, []) := by
  let heard : Hello := { hello with features := features_of hello.version hello.features.bits }
  refine (run_bind_iff _ _ _ _ _).mpr ⟨heard, [], (run_hello _ _ _).mpr
    ⟨hin.version _ rfl, hello.features.bits, rfl, ?_⟩, rfl⟩
  rw [List.append_nil]
  rfl

theorem welcome_read (hlen : welcome.surfaces.length ≤ MAX_SURFACES)
    (hnames : ∀ s ∈ welcome.surfaces, s.name.utf8ByteSize ≤ MAX_NAME_BYTES)
    (hin : (Message.Welcome welcome).InBounds) :
    (read_message_body WELCOME).run
        (welcome.head ++ write_features welcome.version welcome.features.bits) =
      .ok ((Message.Welcome welcome).withoutLegacyFeatures, []) := by
  let heard : Welcome :=
    { welcome with features := features_of welcome.version welcome.features.bits }
  refine (run_bind_iff _ _ _ _ _).mpr ⟨heard, [], (run_welcome _ _ _).mpr
    ⟨hin.version _ rfl, hlen, ?_, welcome.features.bits, rfl, ?_⟩, rfl⟩
  · intro s hs
    exact ⟨hnames s hs, .inr rfl, hin.strings _ (List.mem_map_of_mem hs)⟩
  · rw [List.append_nil]
    rfl

/-- What a message in bounds encodes to is read as that message, a version 1 hello or welcome without
its features. -/
theorem body_accepts (h : m.encode = .ok b) (hin : m.InBounds) : ∃ kind body, b = kind :: body ∧
      (read_message_body kind).run body = .ok (m.withoutLegacyFeatures, []) := by
  cases m with
  | Hello hello =>
    cases h
    exact ⟨_, _, rfl, hello_read hin⟩
  | Welcome welcome =>
    obtain ⟨hlen, hnames, rfl⟩ := welcome_encoded h
    exact ⟨_, _, rfl, welcome_read hlen hnames hin⟩
  | Goodbye reason =>
    obtain ⟨hlen, rfl⟩ := goodbye_encoded h
    apply headed
    exact one_read (canonical_string _ (by decide) false)
      ⟨hlen, .inl (hin.reason _ rfl), hin.strings _ (by simp [Message.strings])⟩
  | Subscribe surface profile =>
    cases h
    apply headed
    exact two_read canonical_u32 (fun _ => canonical_profile) trivial trivial
  | Unsubscribe surface =>
    cases h
    apply headed
    exact one_read canonical_u32 trivial
  | Viewport viewport =>
    cases h
    apply headed
    exact (run_bind_iff _ _ _ _ _).mpr ⟨viewport, [], (run_viewport _ _ _).mpr
      ⟨⟨hin.rects _ (by simp [Message.rects]), hin.scale _ rfl⟩, (List.append_nil _).symm⟩, rfl⟩
  | Acknowledge ack =>
    cases h
    apply headed
    exact one_read canonical_resume trivial
  | CacheMiss surface tile hash =>
    cases h
    apply headed
    exact three_read canonical_u32 (fun _ => canonical_u32) (fun _ _ => canonical_u64)
      trivial trivial trivial
  | AttachedPanes sessions =>
    obtain ⟨hlen, rfl⟩ := counted_encoded h
    apply headed
    exact two_read (canonical_count MAX_PANES (by decide))
      (fun n => canonical_readMany (canonical_fixed 16) n) hlen ⟨rfl, fun _ _ => trivial⟩
  | Batch batch =>
    obtain ⟨body, rfl⟩ := batch_encoded h
    apply headed
    exact (run_bind_iff _ _ _ _ _).mpr ⟨batch, [], (run_batch body batch).mpr
      ((encode_batch_ok_iff batch body).mp h), rfl⟩
  | MotionRegion surface rect =>
    cases h
    apply headed
    exact two_read canonical_u32 (fun _ => canonical_optional_rect) trivial
      fun r hr => hin.rects r (by simpa [Message.rects] using hr)
  | Control holder =>
    cases h
    apply headed
    exact one_read canonical_holder trivial
  | PanePlacements surface panes =>
    obtain ⟨hlen, hcells, rfl⟩ := panes_encoded h
    apply headed
    exact three_read canonical_u32 (fun _ => canonical_count MAX_PANES (by decide))
      (fun _ n => canonical_readMany canonical_pane n) trivial hlen
      ⟨rfl, fun p hp => ⟨hin.rects _ (List.mem_map_of_mem hp), hcells p hp⟩⟩
  | RequestControl =>
    cases h
    exact ⟨_, _, rfl, rfl⟩
  | ReleaseControl =>
    cases h
    exact ⟨_, _, rfl, rfl⟩
  | PointerMove surface x y =>
    cases h
    apply headed
    exact (run_point _ _).mpr ⟨surface, x, y, [], hin.coordinates, by rw [List.append_nil], rfl⟩
  | PointerButton surface x y button pressed =>
    cases h
    apply headed
    exact (run_point _ _).mpr ⟨surface, x, y, _, hin.coordinates, rfl,
      two_read canonical_button (fun _ => canonical_bool) trivial trivial⟩
  | Scroll surface x y dx dy =>
    cases h
    apply headed
    refine (run_point _ _).mpr ⟨surface, x, y, _, hin.coordinates, rfl, ?_⟩
    exact (run_two canonical_u32 (fun _ => canonical_u32) _ _ _ _).mpr
      ⟨dx.toUInt32, dy.toUInt32, ⟨trivial, trivial⟩, by simp [Message.withoutLegacyFeatures],
        by rw [List.append_nil]⟩
  | Key key =>
    cases h
    apply headed
    exact one_read canonical_key trivial
  | Text surface text =>
    obtain ⟨hsome, hlen, rfl⟩ := text_encoded h
    apply headed
    exact two_read canonical_u32 (fun _ => canonical_string _ (by decide) false) trivial
      ⟨hlen, .inl hsome, hin.strings _ (by simp [Message.strings])⟩
  | VideoConfig config =>
    obtain ⟨hp, hl, rfl⟩ := config_encoded h
    apply headed
    exact one_read canonical_config ⟨hin.rects _ (by simp [Message.rects]), hp, hl⟩
  | VideoFrame frame =>
    obtain ⟨hp, hl, rfl⟩ := encode_ok h
    apply headed
    exact one_read canonical_video_frame ⟨hp, hl⟩
  | Parity parity =>
    obtain ⟨hd, hp, hl, rfl⟩ := parity_encoded h
    apply headed
    exact one_read canonical_parity ⟨hd, hp, hl⟩
  | VideoAcknowledge surface tokens =>
    obtain ⟨hlen, rfl⟩ := counted_encoded h
    apply headed
    exact three_read canonical_u32 (fun _ => canonical_count MAX_VIDEO_TOKENS (by decide))
      (fun _ n => canonical_readMany canonical_u32 n) trivial hlen ⟨rfl, fun _ _ => trivial⟩
  | VideoLost surface sequence =>
    cases h
    apply headed
    exact two_read canonical_u32 (fun _ => canonical_u64) trivial trivial
  | BurstMark burst bytes =>
    cases h
    apply headed
    exact two_read canonical_u64 (fun _ => canonical_u64) trivial trivial
  | BurstReport burst bytes spread =>
    cases h
    apply headed
    exact three_read canonical_u64 (fun _ => canonical_u64) (fun _ _ => canonical_u64)
      trivial trivial trivial

/-! ## A message out of bounds does not come back -/

theorem refuses_rest {α β : Type} {reader : MessageReader α} {write : α → List UInt8}
    {ok : α → Prop} (h : Canonical reader write ok) {a : α} (ha : ok a) {next : α → MessageReader β}
    {rest : List UInt8} (hrest : Refuses (next a) rest) :
    Refuses (reader >>= next) (write a ++ rest) :=
  (h.accepts a ha).refuses hrest

theorem refuses_last {α β : Type} {reader : MessageReader α} {next : α → MessageReader β}
    {bytes : List UInt8} (h : Refuses reader bytes) : Refuses (reader >>= next) bytes := by
  have hfirst : Refuses (reader >>= next) (bytes ++ []) := h.first
  rwa [List.append_nil] at hfirst

section
attribute [local simp] Message.version? Message.coordinates Message.rects Message.strings

variable {rest : List UInt8}

theorem refuses_welcome {welcome : Welcome} (hlen : welcome.surfaces.length ≤ MAX_SURFACES)
    (hnames : ∀ s ∈ welcome.surfaces, s.name.utf8ByteSize ≤ MAX_NAME_BYTES)
    (hout : ¬ (Message.Welcome welcome).InBounds) :
    Refuses read_welcome (welcome.head ++ rest) := by
  rw [Welcome.head, List.append_assoc]
  apply refuses_rest canonical_u16 trivial
  by_cases hv : supported welcome.version = true
  · apply Refuses.afterGuard hv
    rw [List.append_assoc, List.append_assoc]
    apply refuses_rest (canonical_count MAX_SURFACES (by decide)) hlen
    have hbad : ∃ s ∈ welcome.surfaces, ¬ plain_text s.name = true := by
      by_contra hnone
      push Not at hnone
      refine hout ⟨by simpa using hv, by simp, by simp, by simp, by simp, ?_⟩
      intro s hs
      obtain ⟨i, hi, rfl⟩ := List.mem_map.mp hs
      exact hnone i hi
    refine (Refuses.readMany welcome.surfaces ?_ ?_ hbad).first
    · intro s hs hplain
      exact canonical_surface.accepts s ⟨hnames s hs, .inr rfl, hplain⟩
    · intro s hs hplain
      exact refuses_surface (hnames s hs) (by simpa using hplain)
  · exact Refuses.guard (by simpa using hv)

theorem refuses_viewport {viewport : Viewport} (hout : ¬ (Message.Viewport viewport).InBounds) :
    Refuses read_viewport (viewport_bytes viewport) := by
  apply refuses_rest canonical_u32 trivial
  by_cases hr : rect_ok viewport.rect = true
  · apply refuses_rest canonical_rect ⟨trivial, hr⟩
    have hscale : (viewport.scale_milli != 0) = false := by
      by_contra hscale
      refine hout ⟨by simp, ?_, by simp, by simpa using hr, by simp, by simp⟩
      rintro v ⟨⟩
      simpa using hscale
    rw [← List.append_nil (write_u16 viewport.scale_milli)]
    exact refuses_rest canonical_u16 trivial (Refuses.guard hscale)
  · exact (refuses_rect (by simpa using hr)).first

theorem refuses_optional_rect {rect : Option WireRect} (h : ¬ ∀ r ∈ rect, rect_ok r = true) :
    Refuses read_optional_rect (write_optional_rect rect) := by
  cases rect with
  | none => exact absurd h (by simp)
  | some r =>
    have hflag : Accepts read_bool [1] true := canonical_bool.accepts true trivial
    have hr : rect_ok r = false := by simpa using h
    exact hflag.refuses (refuses_last (refuses_rect hr))

theorem refuses_panes {panes : List PanePlacement} {surface : UInt32}
    (hcells : ∀ p ∈ panes, p.cell_width ≠ 0 ∧ p.cell_height ≠ 0)
    (hout : ¬ (Message.PanePlacements surface panes).InBounds) :
    Refuses (readMany read_pane panes.length) (panes.flatMap pane_bytes) := by
  have hbad : ∃ p ∈ panes, ¬ rect_ok p.rect = true := by
    by_contra hnone
    push Not at hnone
    refine hout ⟨by simp, by simp, by simp, ?_, by simp, by simp⟩
    intro r hr
    obtain ⟨p, hp, rfl⟩ := List.mem_map.mp hr
    exact hnone p hp
  refine Refuses.readMany panes ?_ ?_ hbad
  · intro p hp hr
    exact canonical_pane.accepts p ⟨hr, hcells p hp⟩
  · intro p _ hr
    exact refuses_pane (by simpa using hr)

theorem refuses_coordinates {β : Type} {x y : UInt32} {next : UInt32 → UInt32 → MessageReader β}
    (h : ¬ ∀ c ∈ [x, y], c.toNat < MAX_SURFACE_DIMENSION) :
    Refuses (read_coordinate >>= fun x => read_coordinate >>= fun y => next x y)
      (write_u32 x ++ (write_u32 y ++ rest)) := by
  by_cases hx : x.toNat < MAX_SURFACE_DIMENSION
  · have hy : MAX_SURFACE_DIMENSION ≤ y.toNat := by
      by_contra hy
      exact h (by simpa [hx] using hy)
    exact refuses_rest canonical_coordinate (in_limit hx) (refuses_coordinate hy).first
  · exact (refuses_coordinate (by omega)).first

theorem body_refuses {m : Message} {b : List UInt8} (h : m.encode = .ok b) (hout : ¬ m.InBounds) :
    ∃ kind body, b = kind :: body ∧ Refuses (read_message_body kind) body := by
  cases m with
  | Hello hello =>
    cases h
    have hv : supported hello.version = false := by
      by_contra hv
      exact hout ⟨by simpa using hv, by simp, by simp, by simp, by simp, by simp⟩
    apply headed
    simp +decide only [read_message_body, if_true, if_false, Hello.head, List.append_assoc]
    exact refuses_last (refuses_rest canonical_u16 trivial (Refuses.guard hv))
  | Welcome welcome =>
    obtain ⟨hlen, hnames, rfl⟩ := welcome_encoded h
    apply headed
    exact refuses_last (refuses_welcome hlen hnames hout)
  | Goodbye reason =>
    obtain ⟨hlen, rfl⟩ := goodbye_encoded h
    apply headed
    refine refuses_last (refuses_string (by decide) hlen ?_)
    rintro ⟨hsome, hplain⟩
    refine hout ⟨by simp, by simp, by simp, by simp, ?_, by simpa using hplain⟩
    rintro r ⟨⟩
    simpa using hsome
  | Viewport viewport =>
    cases h
    apply headed
    exact refuses_last (refuses_viewport hout)
  | MotionRegion surface rect =>
    cases h
    apply headed
    apply refuses_rest canonical_u32 trivial
    exact refuses_last (refuses_optional_rect fun hr =>
      hout ⟨by simp, by simp, by simp, by simpa using hr, by simp, by simp⟩)
  | PanePlacements surface panes =>
    obtain ⟨hlen, hcells, rfl⟩ := panes_encoded h
    apply headed
    apply refuses_rest canonical_u32 trivial
    apply refuses_rest (canonical_count MAX_PANES (by decide)) hlen
    exact refuses_last (refuses_panes hcells hout)
  | PointerMove surface x y =>
    cases h
    apply headed
    apply refuses_rest canonical_u32 trivial
    exact refuses_coordinates fun hc => hout ⟨by simp, by simp, hc, by simp, by simp, by simp⟩
  | PointerButton surface x y button pressed =>
    cases h
    apply headed
    apply refuses_rest canonical_u32 trivial
    exact refuses_coordinates fun hc => hout ⟨by simp, by simp, hc, by simp, by simp, by simp⟩
  | Scroll surface x y dx dy =>
    cases h
    apply headed
    apply refuses_rest canonical_u32 trivial
    exact refuses_coordinates fun hc => hout ⟨by simp, by simp, hc, by simp, by simp, by simp⟩
  | Text surface text =>
    obtain ⟨hsome, hlen, rfl⟩ := text_encoded h
    apply headed
    apply refuses_rest canonical_u32 trivial
    refine refuses_last (refuses_string (by decide) hlen ?_)
    rintro ⟨-, hplain⟩
    exact hout ⟨by simp, by simp, by simp, by simp, by simp, by simpa using hplain⟩
  | VideoConfig config =>
    obtain ⟨hp, hl, rfl⟩ := config_encoded h
    apply headed
    have hr : rect_ok config.rect = false := by
      by_contra hr
      exact hout ⟨by simp, by simp, by simp, by simpa using hr, by simp, by simp⟩
    exact refuses_last (refuses_config hr)
  | _ => exact absurd hout (not_not.mpr inBounds_free)

end

end

/-! ## The format is canonical -/

/-- Why `decode` refuses a message that `encode` wrote. -/
inductive BoundReason
  | UnsupportedVersion
  | ZeroScale
  | CoordinateOutside
  | RectangleOutside
  | EmptyRectangle
  | EmptyReason
  | ControlCharacter

/-- A field of the message is outside the bound that the reason names. -/
def Message.Outside (m : Message) : BoundReason → Prop
  | .UnsupportedVersion => ∃ v ∈ m.version?, supported v = false
  | .ZeroScale => ∃ v, m = .Viewport v ∧ v.scale_milli = 0
  | .CoordinateOutside => ∃ c ∈ m.coordinates, MAX_SURFACE_DIMENSION ≤ c.toNat
  | .RectangleOutside => ∃ r ∈ m.rects, surface_limit.contains_rect r.rect = false
  | .EmptyRectangle => ∃ r ∈ m.rects, r.rect.is_empty = true
  | .EmptyReason => ∃ reason, m = .Goodbye reason ∧ reason.utf8ByteSize = 0
  | .ControlCharacter => ∃ s ∈ m.strings, plain_text s = false

theorem inBounds_iff (m : Message) : m.InBounds ↔ ∀ reason, ¬ m.Outside reason := by
  constructor
  · rintro ⟨h1, h2, h3, h4, h5, h6⟩ reason
    cases reason with
    | UnsupportedVersion => rintro ⟨v, hv, hbad⟩; simp [h1 v hv] at hbad
    | ZeroScale => rintro ⟨v, hv, hbad⟩; exact h2 v hv hbad
    | CoordinateOutside => rintro ⟨c, hc, hbad⟩; exact absurd (h3 c hc) (by omega)
    | RectangleOutside => rintro ⟨r, hr, hbad⟩; simp [((rect_ok_iff r).mp (h4 r hr)).2] at hbad
    | EmptyRectangle => rintro ⟨r, hr, hbad⟩; simp [((rect_ok_iff r).mp (h4 r hr)).1] at hbad
    | EmptyReason => rintro ⟨r, hr, hbad⟩; exact h5 r hr hbad
    | ControlCharacter => rintro ⟨s, hs, hbad⟩; simp [h6 s hs] at hbad
  · intro h
    refine ⟨?_, ?_, ?_, ?_, ?_, ?_⟩
    · intro v hv
      by_contra hbad
      exact h .UnsupportedVersion ⟨v, hv, by simpa using hbad⟩
    · intro v hv hbad
      exact h .ZeroScale ⟨v, hv, hbad⟩
    · intro c hc
      by_contra hbad
      exact h .CoordinateOutside ⟨c, hc, by omega⟩
    · intro r hr
      rw [rect_ok_iff]
      constructor
      · by_contra hbad
        exact h .EmptyRectangle ⟨r, hr, by simpa using hbad⟩
      · by_contra hbad
        exact h .RectangleOutside ⟨r, hr, by simpa using hbad⟩
    · intro r hr hbad
      exact h .EmptyReason ⟨r, hr, hbad⟩
    · intro s hs
      by_contra hbad
      exact h .ControlCharacter ⟨s, hs, by simpa using hbad⟩

theorem decode_only {b : List UInt8} {m : Message} (h : Message.decode b = .ok m) :
    m.InBounds ∧ m.withoutLegacyFeatures = m ∧ m.encode = .ok (clearUnknownFeatures b) := by
  obtain ⟨kind, body, rfl, hbody⟩ := (decode_ok_iff_run b m).mp h
  exact body_only hbody

theorem decode_encoded {m : Message} {b : List UInt8} (h : m.encode = .ok b) (hin : m.InBounds) :
    Message.decode b = .ok m.withoutLegacyFeatures :=
  (decode_ok_iff_run b _).mpr (body_accepts h hin)

theorem decode_refused {m : Message} {b : List UInt8} (h : m.encode = .ok b)
    (hout : ¬ m.InBounds) : ∃ e, Message.decode b = .error e := by
  obtain ⟨kind, body, rfl, hbody⟩ := body_refuses h hout
  exact decode_error hbody

/-- Bytes that decode are the bytes of the message, up to unknown feature bits; a message that
encodes comes back, unless a field is outside a bound that `decode` checks. -/
theorem message_format_is_canonical : (∀ (b : List UInt8) (m : Message), Message.decode b = .ok m →
      m.encode = .ok (clearUnknownFeatures b) ∧ Message.decode (clearUnknownFeatures b) = .ok m) ∧
    ∀ (m : Message) (b : List UInt8), m.encode = .ok b →
      Message.decode b = .ok m.withoutLegacyFeatures ∨
        (∃ e, Message.decode b = .error e) ∧ ∃ reason, m.Outside reason := by
  constructor
  · intro b m h
    obtain ⟨hin, hlegacy, hencode⟩ := decode_only h
    refine ⟨hencode, ?_⟩
    rw [decode_encoded hencode hin, hlegacy]
  · intro m b h
    by_cases hin : m.InBounds
    · exact Or.inl (decode_encoded h hin)
    · refine Or.inr ⟨decode_refused h hin, ?_⟩
      rw [inBounds_iff] at hin
      push Not at hin
      exact hin

def emptyViewport : Message := .Viewport ⟨1, ⟨0, 0, 0, 0⟩, 1000⟩

theorem an_empty_viewport_is_refused : ¬ ∀ (m : Message) (b : List UInt8), m.encode = .ok b →
      Message.decode b = .ok m.withoutLegacyFeatures ∨ (∃ e, Message.decode b = .error e) ∧
          ∃ reason, reason ≠ .EmptyRectangle ∧ m.Outside reason := by
  intro h
  rcases h emptyViewport _ rfl with hok | ⟨-, reason, hne, hout⟩
  · exact absurd hok (by decide +kernel)
  · cases reason with
    | UnsupportedVersion => obtain ⟨v, hv, -⟩ := hout; cases hv
    | ZeroScale =>
      obtain ⟨v, hv, hscale⟩ := hout
      cases hv
      exact absurd hscale (by decide)
    | CoordinateOutside => obtain ⟨c, hc, -⟩ := hout; cases hc
    | RectangleOutside =>
      obtain ⟨r, hr, hbad⟩ := hout
      rw [show r = ⟨0, 0, 0, 0⟩ by simpa [emptyViewport, Message.rects] using hr] at hbad
      exact absurd hbad (by decide)
    | EmptyRectangle => exact hne rfl
    | EmptyReason => obtain ⟨r, hr, -⟩ := hout; cases hr
    | ControlCharacter => obtain ⟨r, hr, -⟩ := hout; cases hr

/-- A version 2 welcome without surfaces, with one feature bit known and one unknown. -/
def sampleWelcome : List UInt8 := [WELCOME, 0, 2, 0, 0, 0x80, 0, 0, 1]

theorem an_unknown_feature_is_dropped :
    clearUnknownFeatures sampleWelcome = [WELCOME, 0, 2, 0, 0, 0, 0, 0, 1] ∧
      Message.decode [WELCOME, 0, 2, 0, 0, 0, 0, 0, 1] = Message.decode sampleWelcome := by
  have hsample : Message.decode sampleWelcome =
      .ok (.Welcome ⟨2, [], .NotRequested, FeatureSet.from_bits 1⟩) := by decide +kernel
  exact ⟨by decide +kernel, (message_format_is_canonical.1 _ _ hsample).2.trans hsample.symm⟩

end multiplex_screen_protocol
