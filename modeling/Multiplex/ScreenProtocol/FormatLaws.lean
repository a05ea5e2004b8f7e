-- The fields and records of a message. Each reader takes exactly the bytes the
-- writer gives for a value within its bounds, and refuses the bytes of a value
-- outside them. Feature bits are the exception: unknown ones are dropped.
import Multiplex.ScreenProtocol.Format

open Bytes multiplex_screen_codec

namespace multiplex_screen_protocol

theorem batch_encoded {batch : SessionBatch} {b : List UInt8}
    (h : (Message.Batch batch).encode = .ok b) : ∃ body, b = BATCH :: body := by
  rw [Message.encode] at h
  split at h
  · cases h
  · cases h
    exact ⟨_, rfl⟩

/-! ## Fields -/

theorem canonical_u8 : Canonical reader_u8 (fun b => [b]) (fun _ => True) :=
  canonical_oneByte _

theorem canonical_u16 : Canonical read_u16 write_u16 (fun _ => True) :=
  (canonical_beInt _ 2).map UInt16.ofNat UInt16.toNat
    (fun _ hn => ⟨UInt16.toNat_ofNat_of_lt' hn, trivial⟩) (fun v _ => ⟨by simp, v.toNat_lt⟩)

theorem canonical_u32 : Canonical read_u32 write_u32 (fun _ => True) :=
  (canonical_beInt _ 4).map UInt32.ofNat UInt32.toNat
    (fun _ hn => ⟨UInt32.toNat_ofNat_of_lt' hn, trivial⟩) (fun v _ => ⟨by simp, v.toNat_lt⟩)

theorem canonical_u64 : Canonical read_u64 write_u64 (fun _ => True) :=
  (canonical_beInt _ 8).map UInt64.ofNat UInt64.toNat
    (fun _ hn => ⟨UInt64.toNat_ofNat_of_lt' hn, trivial⟩) (fun v _ => ⟨by simp, v.toNat_lt⟩)

theorem canonical_fixed (n : Nat) : Canonical (read_fixed n) (fun b => b.val) (fun _ => True) where
  accepts b _ := by
    intro rest
    have htake : Accepts (reader_take n) b.val b.val :=
      (canonical_takeBytes _ n).accepts b.val b.property
    rw [read_fixed, htake.run_bind, dif_pos b.property]
    rfl
  only bytes b rest h := by
    obtain ⟨l, middle, h1, h2⟩ := run_bind_ok h
    obtain ⟨hl, rfl⟩ := (canonical_takeBytes _ n).only _ _ _ h1
    rw [dif_pos hl] at h2
    obtain ⟨rfl, rfl⟩ := pure_ok h2
    exact ⟨trivial, rfl⟩

theorem canonical_choice {α : Type} {choices : List (UInt8 × α)} {byte : α → UInt8}
    (hto : ∀ c, choices.lookup (byte c) = some c) (hfrom : ∀ p ∈ choices, p.1 = byte p.2) :
    Canonical (read_choice choices) (fun c => [byte c]) (fun _ => True) where
  accepts c _ := by
    intro rest
    rw [read_choice, (canonical_u8.accepts (byte c) trivial).run_bind, hto]
    rfl
  only bytes c rest h := by
    obtain ⟨b, middle, h1, h2⟩ := run_bind_ok h
    obtain ⟨-, rfl⟩ := canonical_u8.only _ _ _ h1
    cases hb : choices.lookup b with
    | none => rw [hb] at h2; cases h2
    | some c' =>
      rw [hb] at h2
      obtain ⟨rfl, rfl⟩ := pure_ok h2
      obtain ⟨before, after, rfl, -⟩ := List.lookup_eq_some_iff.mp hb
      exact ⟨trivial, by rw [← hfrom (b, c) (by simp)]⟩

/-- Two, three or one values in order, as their bytes `0`, `1`, `2`. -/
theorem canonical_bool : Canonical read_bool (fun b => [write_bool b]) (fun _ => True) :=
  canonical_choice (by rintro ⟨⟩ <;> rfl) (by simp [write_bool])

theorem canonical_profile :
    Canonical (read_choice [(0, Profile.Interactive), (1, .Thumbnail)]) (fun p => [p.byte])
      (fun _ => True) :=
  canonical_choice (by rintro ⟨⟩ <;> rfl) (by simp [Profile.byte])

theorem canonical_outcome :
    Canonical (read_choice [(0, ResumeOutcome.NotRequested), (1, .Partial), (2, .Full)])
      (fun p => [p.byte]) (fun _ => True) :=
  canonical_choice (by rintro ⟨⟩ <;> rfl) (by simp [ResumeOutcome.byte])

theorem canonical_holder :
    Canonical (read_choice [(0, ControlHolder.Nobody), (1, .You), (2, .AnotherDevice)])
      (fun p => [p.byte]) (fun _ => True) :=
  canonical_choice (by rintro ⟨⟩ <;> rfl) (by simp [ControlHolder.byte])

theorem canonical_button :
    Canonical (read_choice [(0, PointerButton.Primary), (1, .Secondary), (2, .Middle)])
      (fun p => [p.byte]) (fun _ => True) :=
  canonical_choice (by rintro ⟨⟩ <;> rfl) (by simp [PointerButton.byte])

theorem canonical_codec :
    Canonical (read_choice [(0, MotionCodec.Hevc)]) (fun p => [p.byte]) (fun _ => True) :=
  canonical_choice (by rintro ⟨⟩; rfl) (by simp [MotionCodec.byte])

theorem canonical_coordinate : Canonical read_coordinate write_u32
    (fun v => True ∧ decide (v.toNat < MAX_SURFACE_DIMENSION) = true) :=
  canonical_u32.check _ fun v => decide (v.toNat < MAX_SURFACE_DIMENSION)

theorem canonical_size : Canonical read_size
    (fun s => beBytes 4 s.width ++ beBytes 4 s.height) (fun _ => True) where
  accepts s _ := by
    have hw : s.width < 256 ^ 4 := by
      have := s.width_le
      simp only [MAX_SURFACE_DIMENSION] at this
      omega
    have hh : s.height < 256 ^ 4 := by
      have := s.height_le
      simp only [MAX_SURFACE_DIMENSION] at this
      omega
    apply Accepts.bind ((canonical_beInt _ 4).accepts _ hw)
    intro rest
    rw [reader_u32, ((canonical_beInt _ 4).accepts _ hh).run_bind, size_new_self]
    rfl
  only bytes s rest h := by
    obtain ⟨w, m1, h1, hnext⟩ := run_bind_ok h
    obtain ⟨t, m2, h2, hlast⟩ := run_bind_ok hnext
    obtain ⟨-, rfl⟩ := beInt_only h1
    obtain ⟨-, rfl⟩ := beInt_only h2
    cases hsize : Size.new w t with
    | error e => rw [hsize] at hlast; cases hlast
    | ok size =>
      rw [hsize] at hlast
      obtain ⟨rfl, rfl⟩ := pure_ok hlast
      obtain ⟨rfl, rfl⟩ := size_new_ok hsize
      exact ⟨trivial, by rw [List.append_assoc]⟩

/-- A rectangle that `decode` takes: something is in it, and all of it inside the limit. -/
def rect_ok (r : WireRect) : Bool :=
  !(r.rect.is_empty || !surface_limit.contains_rect r.rect)

theorem canonical_wire_rect : Canonical
    (do
      let x ← read_u32
      let y ← read_u32
      let width ← read_u32
      let height ← read_u32
      return (⟨x, y, width, height⟩ : WireRect)) write_rect (fun _ => True) where
  accepts r _ := by
    apply Accepts.bind (canonical_u32.accepts r.x trivial)
    apply Accepts.bind (canonical_u32.accepts r.y trivial)
    apply Accepts.bind (canonical_u32.accepts r.width trivial)
    exact (canonical_u32.accepts r.height trivial).map
      fun height => (⟨r.x, r.y, r.width, height⟩ : WireRect)
  only bytes r rest h := by
    simp only [run_bind_iff, canonical_u32.run_iff, run_pure_iff] at h
    obtain ⟨x, _, ⟨-, rfl⟩, y, _, ⟨-, rfl⟩, w, _, ⟨-, rfl⟩, t, _, ⟨-, rfl⟩, rfl, rfl⟩ := h
    exact ⟨trivial, by simp [write_rect]⟩

theorem read_rect_eq : read_rect = (do
      let x ← read_u32
      let y ← read_u32
      let width ← read_u32
      let height ← read_u32
      return (⟨x, y, width, height⟩ : WireRect)) >>= fun r =>
        guardThat .Malformed (rect_ok r) >>= fun _ => pure r := by
  simp [read_rect, rect_ok]

theorem canonical_rect : Canonical read_rect write_rect (fun r => True ∧ rect_ok r = true) := by
  rw [read_rect_eq]
  exact canonical_wire_rect.check _ rect_ok

theorem refuses_rect {r : WireRect} (h : rect_ok r = false) : Refuses read_rect (write_rect r) := by
  rw [read_rect_eq]
  exact canonical_wire_rect.refuses_check trivial h

theorem refuses_coordinate {v : UInt32} (h : MAX_SURFACE_DIMENSION ≤ v.toNat) :
    Refuses read_coordinate (write_u32 v) :=
  canonical_u32.refuses_check trivial (by simpa using h)

theorem canonical_resume : Canonical read_resume write_resume (fun _ => True) where
  accepts r _ := by
    apply Accepts.bind (canonical_u32.accepts r.surface trivial)
    apply Accepts.bind (canonical_u32.accepts r.generation trivial)
    exact (canonical_u64.accepts r.sequence trivial).map
      fun sequence => (⟨r.surface, r.generation, sequence⟩ : ResumeRequest)
  only bytes r rest h := by
    simp only [read_resume, run_bind_iff, canonical_u32.run_iff, canonical_u64.run_iff,
      run_pure_iff] at h
    obtain ⟨s, _, ⟨-, rfl⟩, g, _, ⟨-, rfl⟩, n, _, ⟨-, rfl⟩, rfl, rfl⟩ := h
    exact ⟨trivial, by simp [write_resume]⟩

theorem canonical_optional_resume :
    Canonical read_optional_resume write_optional_resume (fun _ => True) where
  accepts r _ := by
    cases r with
    | none => exact fun _ => rfl
    | some r =>
      have hflag : Accepts read_bool [1] true := canonical_bool.accepts true trivial
      exact hflag.bind ((canonical_resume.accepts r trivial).map some)
  only bytes r rest h := by
    obtain ⟨flag, middle, h1, h2⟩ := run_bind_ok h
    obtain ⟨-, rfl⟩ := canonical_bool.only _ _ _ h1
    cases flag with
    | false =>
      obtain ⟨rfl, rfl⟩ := pure_ok h2
      exact ⟨trivial, rfl⟩
    | true =>
      obtain ⟨resume, middle', h3, h4⟩ := run_bind_ok h2
      obtain ⟨-, rfl⟩ := canonical_resume.only _ _ _ h3
      obtain ⟨rfl, rfl⟩ := pure_ok h4
      exact ⟨trivial, rfl⟩

theorem canonical_optional_rect :
    Canonical read_optional_rect write_optional_rect (fun r => ∀ rect ∈ r, rect_ok rect = true) where
  accepts r hr := by
    cases r with
    | none => exact fun _ => rfl
    | some r =>
      have hflag : Accepts read_bool [1] true := canonical_bool.accepts true trivial
      exact hflag.bind ((canonical_rect.accepts r ⟨trivial, hr r rfl⟩).map some)
  only bytes r rest h := by
    obtain ⟨flag, middle, h1, h2⟩ := run_bind_ok h
    obtain ⟨-, rfl⟩ := canonical_bool.only _ _ _ h1
    cases flag with
    | false =>
      obtain ⟨rfl, rfl⟩ := pure_ok h2
      exact ⟨by simp, rfl⟩
    | true =>
      obtain ⟨rect, middle', h3, h4⟩ := run_bind_ok h2
      obtain ⟨hrect, rfl⟩ := canonical_rect.only _ _ _ h3
      obtain ⟨rfl, rfl⟩ := pure_ok h4
      exact ⟨by simpa using hrect.2, rfl⟩

theorem canonical_count (limit : Nat) (hlimit : limit < 256) :
    Canonical (read_count limit) (fun n => [UInt8.ofNat n]) (fun n => n ≤ limit) where
  accepts n hn := by
    have hbyte : (UInt8.ofNat n).toNat = n := UInt8.toNat_ofNat_of_lt' (by omega : n < 256)
    intro rest
    rw [read_count, (canonical_u8.accepts (UInt8.ofNat n) trivial).run_bind, hbyte, run_guard_bind,
      if_pos (by simpa using hn)]
    rfl
  only bytes n rest h := by
    obtain ⟨b, m1, h1, hnext⟩ := run_bind_ok h
    obtain ⟨u, m2, h2, hlast⟩ := run_bind_ok hnext
    obtain ⟨-, rfl⟩ := canonical_u8.only _ _ _ h1
    obtain ⟨hle, rfl⟩ := guardThat_ok h2
    obtain ⟨rfl, rfl⟩ := pure_ok hlast
    exact ⟨by simpa using hle, by simp⟩

/-- What `read_string` wants of a string. -/
def string_ok (limit : Nat) (allow_empty : Bool) (text : String) : Prop :=
  text.utf8ByteSize ≤ limit ∧ (text.utf8ByteSize ≠ 0 ∨ allow_empty = true) ∧
    plain_text text = true

theorem length_string (text : String) :
    text.toByteArray.data.toList.length = text.utf8ByteSize := by
  rw [Array.length_toList]
  rfl

theorem fromUTF8_bytes (text : String) :
    String.fromUTF8? ⟨text.toByteArray.data.toList.toArray⟩ = some text := by
  have hbytes : (⟨text.toByteArray.data.toList.toArray⟩ : ByteArray) = text.toByteArray := by simp
  rw [hbytes, String.fromUTF8?, dif_pos text.isValidUTF8]
  rfl

variable {text : String} {limit : Nat} {allow_empty : Bool} {kind : UInt8}

theorem fromUTF8_eq_some {bytes : List UInt8} (h : String.fromUTF8? ⟨bytes.toArray⟩ = some text) :
    bytes = text.toByteArray.data.toList := by
  unfold String.fromUTF8? at h
  split at h
  · cases h
    simp [String.fromUTF8]
  · cases h

theorem read_string_run (hlimit : limit < 65536) (hlen : text.utf8ByteSize ≤ limit)
    (rest : List UInt8) : (read_string limit allow_empty).run (string_bytes text ++ rest) =
      if (text.utf8ByteSize ≠ 0 ∨ allow_empty = true) ∧ plain_text text = true then .ok (text, rest)
      else .error .Malformed := by
  have hnat : Accepts (beInt ProtocolError.Malformed 2) (beBytes 2 text.utf8ByteSize)
      text.utf8ByteSize := (canonical_beInt _ 2).accepts _ (by omega)
  have htake : Accepts (reader_take text.utf8ByteSize) text.toByteArray.data.toList
      text.toByteArray.data.toList :=
    (canonical_takeBytes _ _).accepts _ (length_string text)
  have hle : decide (text.utf8ByteSize > limit) = false := by simpa using hlen
  rw [read_string, string_bytes, List.append_assoc, hnat.run_bind, run_guard_bind, hle,
    Bool.false_or]
  by_cases hempty : text.utf8ByteSize ≠ 0 ∨ allow_empty = true
  · have hguard : (!(text.utf8ByteSize == 0 && !allow_empty)) = true := by
      rcases hempty with h | h <;> simp [h]
    simp only [hguard, if_true, htake.run_bind, fromUTF8_bytes, run_guard_bind, hempty, true_and]
    rfl
  · have hguard : (!(text.utf8ByteSize == 0 && !allow_empty)) = false := by
      push Not at hempty
      simp [hempty]
    rw [hguard, if_neg Bool.false_ne_true, if_neg (fun h => hempty h.1)]

theorem canonical_string (limit : Nat) (hlimit : limit < 65536) (allow_empty : Bool) :
    Canonical (read_string limit allow_empty) string_bytes (string_ok limit allow_empty) where
  accepts text h := by
    intro rest
    rw [read_string_run hlimit h.1, if_pos h.2]
  only bytes text rest h := by
    obtain ⟨n, m1, h1, hnext⟩ := run_bind_ok h
    obtain ⟨u, m2, h2, hbody⟩ := run_bind_ok hnext
    obtain ⟨l, m3, h3, hlast⟩ := run_bind_ok hbody
    obtain ⟨-, rfl⟩ := (canonical_beInt _ 2).only _ _ _ h1
    obtain ⟨hc, rfl⟩ := guardThat_ok h2
    obtain ⟨hl, rfl⟩ := (canonical_takeBytes _ n).only _ _ _ h3
    cases htext : String.fromUTF8? ⟨l.toArray⟩ with
    | none => rw [htext] at hlast; cases hlast
    | some t =>
      rw [htext] at hlast
      obtain ⟨u', m4, h4, h5⟩ := run_bind_ok hlast
      obtain ⟨hplain, rfl⟩ := guardThat_ok h4
      obtain ⟨rfl, rfl⟩ := pure_ok h5
      have hbytes := fromUTF8_eq_some htext
      have hsize : text.utf8ByteSize = n := by rw [← length_string, ← hbytes, hl]
      refine ⟨⟨?_, ?_, hplain⟩, ?_⟩
      · simp at hc
        omega
      · rw [hsize]
        cases allow_empty <;> simp_all
      · rw [string_bytes, hsize, ← hbytes, List.append_assoc]
        rfl

theorem refuses_string (hlimit : limit < 65536) (hlen : text.utf8ByteSize ≤ limit)
    (hbad : ¬ ((text.utf8ByteSize ≠ 0 ∨ allow_empty = true) ∧ plain_text text = true)) :
    Refuses (read_string limit allow_empty) (string_bytes text) := by
  intro rest
  exact ⟨.Malformed, by rw [read_string_run hlimit hlen, if_neg hbad]⟩

theorem canonical_sized (limit : Nat) (hlimit : limit < 256 ^ 4) :
    Canonical (sized_bytes limit) write_sized (fun p => 0 < p.length ∧ p.length ≤ limit) where
  accepts p hp := accepts_sized_bytes hp.1 hp.2 (by omega)
  only bytes p rest h := by
    obtain ⟨n, m1, h1, hnext⟩ := run_bind_ok h
    obtain ⟨u, m2, h2, hlast⟩ := run_bind_ok hnext
    obtain ⟨-, rfl⟩ := beInt_only h1
    obtain ⟨hc, rfl⟩ := guardThat_ok h2
    obtain ⟨rfl, rfl⟩ := (canonical_takeBytes _ n).only _ _ _ hlast
    simp only [Bool.and_eq_true, bne_iff_ne, decide_eq_true_eq] at hc
    exact ⟨⟨by omega, hc.2⟩, by simp [write_sized]⟩

/-! ## Records -/

def surface_bytes (s : SurfaceInfo) : List UInt8 :=
  write_u32 s.id ++ ((beBytes 4 s.size.width ++ beBytes 4 s.size.height) ++
    (write_u16 s.scale_milli ++ string_bytes s.name))

theorem canonical_surface :
    Canonical read_surface surface_bytes (fun s => string_ok MAX_NAME_BYTES true s.name) where
  accepts s hs := by
    apply Accepts.bind (canonical_u32.accepts s.id trivial)
    apply Accepts.bind (canonical_size.accepts s.size trivial)
    apply Accepts.bind (canonical_u16.accepts s.scale_milli trivial)
    exact ((canonical_string _ (by decide) true).accepts s.name hs).map
      fun name => (⟨s.id, s.size, s.scale_milli, name⟩ : SurfaceInfo)
  only bytes s rest h := by
    simp only [read_surface, run_bind_iff, canonical_u32.run_iff, canonical_size.run_iff,
      canonical_u16.run_iff, (canonical_string MAX_NAME_BYTES (by decide) true).run_iff,
      run_pure_iff] at h
    obtain ⟨i, _, ⟨-, rfl⟩, z, _, ⟨-, rfl⟩, m, _, ⟨-, rfl⟩, n, _, ⟨hn, rfl⟩, rfl, rfl⟩ := h
    exact ⟨hn, by simp [surface_bytes]⟩

theorem refuses_surface {s : SurfaceInfo} (hlen : s.name.utf8ByteSize ≤ MAX_NAME_BYTES)
    (hbad : plain_text s.name = false) : Refuses read_surface (surface_bytes s) := by
  apply Accepts.refuses (canonical_u32.accepts s.id trivial)
  apply Accepts.refuses (canonical_size.accepts s.size trivial)
  apply Accepts.refuses (canonical_u16.accepts s.scale_milli trivial)
  have hname : Refuses (read_string MAX_NAME_BYTES true) (string_bytes s.name) :=
    refuses_string (by decide) hlen (by simp [hbad])
  have hlast : Refuses (read_string MAX_NAME_BYTES true >>= fun name =>
      (pure ⟨s.id, s.size, s.scale_milli, name⟩ : MessageReader SurfaceInfo))
      (string_bytes s.name ++ []) := hname.first
  rwa [List.append_nil] at hlast

def viewport_bytes (v : Viewport) : List UInt8 :=
  write_u32 v.surface ++ (write_rect v.rect ++ write_u16 v.scale_milli)

variable (bytes : List UInt8) (version : UInt16)

theorem run_viewport (v : Viewport) (rest : List UInt8) : read_viewport.run bytes = .ok (v, rest) ↔
      (rect_ok v.rect = true ∧ v.scale_milli ≠ 0) ∧ bytes = viewport_bytes v ++ rest := by
  simp only [read_viewport, run_bind_iff, canonical_u32.run_iff, canonical_rect.run_iff,
    canonical_u16.run_iff, run_guard_iff, run_pure_iff, bne_iff_ne]
  constructor
  · rintro ⟨s, _, ⟨-, rfl⟩, r, _, ⟨hr, rfl⟩, m, _, ⟨-, rfl⟩, _, _, ⟨hm, rfl⟩, rfl, rfl⟩
    exact ⟨⟨hr.2, hm⟩, by simp [viewport_bytes]⟩
  · rintro ⟨⟨hr, hm⟩, rfl⟩
    exact ⟨v.surface, _, ⟨trivial, by simp [viewport_bytes]⟩, v.rect, _, ⟨⟨trivial, hr⟩, rfl⟩,
      v.scale_milli, _, ⟨trivial, rfl⟩, (), _, ⟨hm, rfl⟩, rfl, rfl⟩

def pane_bytes (p : PanePlacement) : List UInt8 :=
  p.session.val ++ (write_rect p.rect ++ (write_u16 p.cell_width ++ write_u16 p.cell_height))

theorem canonical_pane : Canonical read_pane pane_bytes
    (fun p => rect_ok p.rect = true ∧ p.cell_width ≠ 0 ∧ p.cell_height ≠ 0) where
  accepts p hp := by
    apply Accepts.bind ((canonical_fixed 16).accepts p.session trivial)
    apply Accepts.bind (canonical_rect.accepts p.rect ⟨trivial, hp.1⟩)
    apply Accepts.bind (canonical_u16.accepts p.cell_width trivial)
    intro rest
    rw [(canonical_u16.accepts p.cell_height trivial).run_bind]
    rw [run_guard_bind, if_pos (by simp [hp.2.1, hp.2.2])]
    rfl
  only bytes p rest h := by
    simp only [read_pane, run_bind_iff, (canonical_fixed 16).run_iff, canonical_rect.run_iff,
      canonical_u16.run_iff, run_guard_iff, run_pure_iff] at h
    obtain ⟨s, _, ⟨-, rfl⟩, r, _, ⟨hr, rfl⟩, w, _, ⟨-, rfl⟩, t, _, ⟨-, rfl⟩, _, _, ⟨hc, rfl⟩, rfl,
      rfl⟩ := h
    simp at hc
    exact ⟨⟨hr.2, hc⟩, by simp [pane_bytes]⟩

theorem refuses_pane {p : PanePlacement} (h : rect_ok p.rect = false) :
    Refuses read_pane (pane_bytes p) := by
  apply Accepts.refuses ((canonical_fixed 16).accepts p.session trivial)
  exact (refuses_rect h).first

def key_bytes (k : KeyEvent) : List UInt8 :=
  write_u16 k.usage ++ [k.modifiers.bits, write_bool k.pressed]

theorem modifiers_new (m : Modifiers) : Modifiers.new m.bits = some m := by
  unfold Modifiers.new
  rw [dif_pos m.only_known]

theorem modifiers_new_eq {bits : UInt8} {m : Modifiers} (h : Modifiers.new bits = some m) :
    bits = m.bits := by
  unfold Modifiers.new at h
  split at h
  · cases h; rfl
  · cases h

theorem canonical_key : Canonical read_key key_bytes (fun _ => True) where
  accepts k _ := by
    apply Accepts.bind (canonical_u16.accepts k.usage trivial)
    have hbits : Accepts reader_u8 [k.modifiers.bits] k.modifiers.bits :=
      canonical_u8.accepts _ trivial
    apply hbits.bind
    rw [modifiers_new]
    exact (canonical_bool.accepts k.pressed trivial).map
      fun pressed => (⟨k.usage, k.modifiers, pressed⟩ : KeyEvent)
  only bytes k rest h := by
    obtain ⟨u, m1, h1, hnext⟩ := run_bind_ok h
    obtain ⟨b, m2, h2, hlast⟩ := run_bind_ok hnext
    obtain ⟨-, rfl⟩ := canonical_u16.only _ _ _ h1
    obtain ⟨-, rfl⟩ := canonical_u8.only _ _ _ h2
    cases hm : Modifiers.new b with
    | none => rw [hm] at hlast; cases hlast
    | some m =>
      rw [hm] at hlast
      simp only [run_bind_iff, canonical_bool.run_iff, run_pure_iff] at hlast
      obtain ⟨p, _, ⟨-, rfl⟩, rfl, rfl⟩ := hlast
      exact ⟨trivial, by simp [key_bytes, modifiers_new_eq hm]⟩

def config_bytes (c : VideoConfig) : List UInt8 :=
  write_u32 c.surface ++ ([c.codec.byte] ++ (write_rect c.rect ++ write_sized c.payload))

theorem canonical_config : Canonical read_video_config config_bytes
    (fun c => rect_ok c.rect = true ∧ 0 < c.payload.length ∧
      c.payload.length ≤ MAX_VIDEO_FRAME_BYTES) where
  accepts c hc := by
    apply Accepts.bind (canonical_u32.accepts c.surface trivial)
    apply Accepts.bind (canonical_codec.accepts c.codec trivial)
    apply Accepts.bind (canonical_rect.accepts c.rect ⟨trivial, hc.1⟩)
    exact ((canonical_sized _ (by decide)).accepts c.payload hc.2).map
      fun payload => (⟨c.surface, c.codec, c.rect, payload⟩ : VideoConfig)
  only bytes c rest h := by
    simp only [read_video_config, run_bind_iff, canonical_u32.run_iff, canonical_codec.run_iff,
      canonical_rect.run_iff, (canonical_sized MAX_VIDEO_FRAME_BYTES (by decide)).run_iff,
      run_pure_iff] at h
    obtain ⟨s, _, ⟨-, rfl⟩, k, _, ⟨-, rfl⟩, r, _, ⟨hr, rfl⟩, p, _, ⟨hp, rfl⟩, rfl, rfl⟩ := h
    exact ⟨⟨hr.2, hp⟩, by simp [config_bytes]⟩

theorem refuses_config {c : VideoConfig} (h : rect_ok c.rect = false) :
    Refuses read_video_config (config_bytes c) := by
  apply Accepts.refuses (canonical_u32.accepts c.surface trivial)
  apply Accepts.refuses (canonical_codec.accepts c.codec trivial)
  exact (refuses_rect h).first

theorem canonical_flag : Canonical reader_flag (fun b => [if b then 1 else 0]) (fun _ => True) where
  accepts b _ := accepts_flag b
  only bytes b rest h := by
    obtain ⟨flag, middle, h1, h2⟩ := run_bind_ok h
    obtain ⟨-, rfl⟩ := canonical_u8.only _ _ _ h1
    split at h2
    · rename_i h0
      obtain ⟨rfl, rfl⟩ := pure_ok h2
      exact ⟨trivial, by simp [h0]⟩
    · split at h2
      · rename_i hone
        obtain ⟨rfl, rfl⟩ := pure_ok h2
        exact ⟨trivial, by simp [hone]⟩
      · cases h2

theorem canonical_token : Canonical reader_token write_token (fun _ => True) where
  accepts t _ := accepts_token t
  only bytes t rest h := by
    obtain ⟨flag, middle, h1, h2⟩ := run_bind_ok h
    obtain ⟨-, rfl⟩ := canonical_u8.only _ _ _ h1
    split at h2
    · rename_i h0
      obtain ⟨rfl, rfl⟩ := pure_ok h2
      exact ⟨trivial, by simp [write_token, h0]⟩
    · split at h2
      · rename_i hone
        obtain ⟨n, middle', h3, h4⟩ := run_bind_ok h2
        obtain ⟨hn, rfl⟩ := beInt_only h3
        obtain ⟨rfl, rfl⟩ := pure_ok h4
        have htoken : (UInt32.ofNat n).toNat = n := UInt32.toNat_ofNat_of_lt' hn
        exact ⟨trivial, by simp [write_token, hone, htoken]⟩
      · cases h2

theorem canonical_video_frame : Canonical read_video_frame VideoFrame.body
    (fun f => 0 < f.payload.length ∧ f.payload.length ≤ MAX_VIDEO_FRAME_BYTES) where
  accepts f hf := accepts_video_frame f hf.1 hf.2
  only bytes f rest h := by
    simp only [read_video_frame, run_bind_iff, reader_u32, reader_u64,
      (canonical_beInt ProtocolError.Malformed 4).run_iff,
      (canonical_beInt ProtocolError.Malformed 8).run_iff, canonical_flag.run_iff,
      canonical_token.run_iff, (canonical_sized MAX_VIDEO_FRAME_BYTES (by decide)).run_iff,
      run_pure_iff] at h
    obtain ⟨s, _, ⟨hs, rfl⟩, q, _, ⟨hq, rfl⟩, k, _, ⟨-, rfl⟩, t, _, ⟨-, rfl⟩, p, _, ⟨hp, rfl⟩, rfl,
      rfl⟩ := h
    have hs' : (UInt32.ofNat s).toNat = s := UInt32.toNat_ofNat_of_lt' hs
    have hq' : (UInt64.ofNat q).toNat = q := UInt64.toNat_ofNat_of_lt' hq
    exact ⟨hp, by simp [VideoFrame.body, hs', hq', write_sized]⟩

def parity_bytes (p : Parity) : List UInt8 :=
  write_u32 p.surface ++ (write_u64 p.group ++ ([p.index] ++ ([p.data_shards] ++
    write_sized p.payload)))

theorem canonical_parity : Canonical read_parity parity_bytes
    (fun p => p.data_shards ≠ 0 ∧ 0 < p.payload.length ∧ p.payload.length ≤ MAX_PARITY_BYTES) where
  accepts p hp := by
    apply Accepts.bind (canonical_u32.accepts p.surface trivial)
    apply Accepts.bind (canonical_u64.accepts p.group trivial)
    apply Accepts.bind (canonical_u8.accepts p.index trivial)
    apply Accepts.bind (canonical_u8.accepts p.data_shards trivial)
    apply Accepts.guard (by simpa using hp.1)
    exact ((canonical_sized MAX_PARITY_BYTES (by decide)).accepts p.payload hp.2).map
      fun payload => (⟨p.surface, p.group, p.index, p.data_shards, payload⟩ : Parity)
  only bytes p rest h := by
    simp only [read_parity, run_bind_iff, canonical_u32.run_iff, canonical_u64.run_iff,
      canonical_u8.run_iff, run_guard_iff, (canonical_sized MAX_PARITY_BYTES (by decide)).run_iff,
      run_pure_iff] at h
    obtain ⟨s, _, ⟨-, rfl⟩, g, _, ⟨-, rfl⟩, i, _, ⟨-, rfl⟩, d, _, ⟨-, rfl⟩, _, _, ⟨hd, rfl⟩, l, _,
      ⟨hl, rfl⟩, rfl, rfl⟩ := h
    exact ⟨⟨by simpa using hd, hl⟩, by simp [parity_bytes]⟩

/-! ## Feature bits -/

/-- What a peer of this version is understood to say with these bits. -/
def features_of (version : UInt16) (bits : UInt32) : FeatureSet :=
  if version ≥ FEATURES_PROTOCOL_VERSION then FeatureSet.from_bits bits else FeatureSet.none

theorem run_features (bytes : List UInt8) (f : FeatureSet) (rest : List UInt8) :
    (read_features version).run bytes = .ok (f, rest) ↔
      ∃ bits, f = features_of version bits ∧ bytes = write_features version bits ++ rest := by
  unfold read_features features_of write_features
  split
  · simp only [run_bind_iff, canonical_u32.run_iff, run_pure_iff]
    constructor
    · rintro ⟨bits, _, ⟨-, rfl⟩, rfl, rfl⟩
      exact ⟨bits, rfl, rfl⟩
    · rintro ⟨bits, rfl, rfl⟩
      exact ⟨bits, _, ⟨trivial, rfl⟩, rfl, rfl⟩
  · rw [run_pure_iff]
    simp

/-- The bytes written for the features that were understood are the bytes read without the unknown
bits. -/
theorem write_features_of (bits : UInt32) : write_features version (features_of version bits).bits =
      write_features version (bits &&& FeatureSet.KNOWN) := by
  unfold write_features features_of
  split <;> rfl

/-- A message with the feature bits that this build does not know cleared: the last four bytes of a
hello or a welcome whose version has a feature set. -/
def clearUnknownFeatures (bytes : List UInt8) : List UInt8 :=
  match bytes with
  | kind :: high :: low :: _ =>
    if (kind = HELLO ∨ kind = WELCOME) ∧ FEATURES_PROTOCOL_VERSION.toNat ≤ beNat [high, low] then
      bytes.take (bytes.length - 4) ++
        write_u32 (UInt32.ofNat (beNat (bytes.drop (bytes.length - 4))) &&& FeatureSet.KNOWN)
    else bytes
  | _ => bytes

theorem clear_other (body : List UInt8) (h1 : kind ≠ HELLO) (h2 : kind ≠ WELCOME) :
    clearUnknownFeatures (kind :: body) = kind :: body := by
  unfold clearUnknownFeatures
  split
  · rename_i heq
    cases heq
    rw [if_neg (by simp [h1, h2])]
  · rfl

theorem clear_features (hkind : kind = HELLO ∨ kind = WELCOME) (version : UInt16)
    {head middle : List UInt8} (hhead : head = write_u16 version ++ middle) (bits : UInt32) :
    clearUnknownFeatures (kind :: (head ++ write_features version bits)) =
      kind :: (head ++ write_features version (bits &&& FeatureSet.KNOWN)) := by
  rw [hhead, List.append_assoc, List.append_assoc]
  have hversion : beNat (write_u16 version) = version.toNat := beNat_beBytes version.toNat_lt
  obtain ⟨high, low, hhl⟩ : ∃ high low, write_u16 version = [high, low] := ⟨_, _, rfl⟩
  rw [hhl] at hversion ⊢
  simp only [clearUnknownFeatures, List.cons_append, List.nil_append, hversion, hkind, true_and]
  unfold write_features
  by_cases hv : version ≥ FEATURES_PROTOCOL_VERSION
  · have hbits : beNat (write_u32 bits) = bits.toNat := beNat_beBytes bits.toNat_lt
    have hlen : (write_u32 bits).length = 4 := length_beBytes 4 _
    rw [if_pos (UInt16.le_iff_toNat_le.mp hv), if_pos hv, if_pos hv]
    have hsplit : kind :: high :: low :: (middle ++ write_u32 bits) =
        (kind :: high :: low :: middle) ++ write_u32 bits := rfl
    have htake : (kind :: high :: low :: (middle ++ write_u32 bits)).length - 4 =
        (kind :: high :: low :: middle).length := by
      simp only [List.length_cons, List.length_append, hlen]
      omega
    rw [htake, hsplit, List.take_left, List.drop_left, hbits, UInt32.ofNat_toNat]
    rfl
  · rw [if_neg (fun h => hv (UInt16.le_iff_toNat_le.mpr h)), if_neg hv, if_neg hv]

theorem run_hello (h : Hello) (rest : List UInt8) : read_hello.run bytes = .ok (h, rest) ↔
      supported h.version = true ∧ ∃ bits, h.features = features_of h.version bits ∧
        bytes = h.head ++ (write_features h.version bits ++ rest) := by
  simp only [read_hello, run_bind_iff, canonical_u16.run_iff, run_guard_iff,
    (canonical_fixed 32).run_iff, canonical_u64.run_iff, canonical_optional_resume.run_iff,
    run_features, run_pure_iff]
  constructor
  · rintro ⟨v, _, ⟨-, rfl⟩, _, _, ⟨hv, rfl⟩, t, _, ⟨-, rfl⟩, c, _, ⟨-, rfl⟩, r, _, ⟨-, rfl⟩, f, _,
      ⟨bits, rfl, rfl⟩, rfl, rfl⟩
    exact ⟨hv, bits, rfl, by simp [Hello.head]⟩
  · rintro ⟨hv, bits, hf, rfl⟩
    exact ⟨h.version, _, ⟨trivial, by simp [Hello.head]⟩, (), _, ⟨hv, rfl⟩,
      h.ticket_proof, _, ⟨trivial, rfl⟩, h.cache_bytes, _, ⟨trivial, rfl⟩, h.resume, _,
      ⟨trivial, rfl⟩, h.features, _, ⟨bits, hf, rfl⟩, rfl, rfl⟩

/-- The part of a welcome before its features. -/
def Welcome.head (w : Welcome) : List UInt8 :=
  write_u16 w.version ++ ([UInt8.ofNat w.surfaces.length] ++ (w.surfaces.flatMap surface_bytes ++
    [w.resume.byte]))

theorem run_welcome (w : Welcome) (rest : List UInt8) : read_welcome.run bytes = .ok (w, rest) ↔
      supported w.version = true ∧ w.surfaces.length ≤ MAX_SURFACES ∧
        (∀ s ∈ w.surfaces, string_ok MAX_NAME_BYTES true s.name) ∧
        ∃ bits, w.features = features_of w.version bits ∧
          bytes = w.head ++ (write_features w.version bits ++ rest) := by
  simp only [read_welcome, run_bind_iff, canonical_u16.run_iff, run_guard_iff,
    (canonical_count MAX_SURFACES (by decide)).run_iff,
    fun n => (canonical_readMany canonical_surface n).run_iff, canonical_outcome.run_iff,
    run_features, run_pure_iff]
  constructor
  · rintro ⟨v, _, ⟨-, rfl⟩, _, _, ⟨hv, rfl⟩, n, _, ⟨hn, rfl⟩, l, _, ⟨⟨rfl, hl⟩, rfl⟩, r, _,
      ⟨-, rfl⟩, f, _, ⟨bits, rfl, rfl⟩, rfl, rfl⟩
    exact ⟨hv, hn, hl, bits, rfl, by simp [Welcome.head]⟩
  · rintro ⟨hv, hn, hl, bits, hf, rfl⟩
    exact ⟨w.version, _, ⟨trivial, by simp [Welcome.head]⟩, (), _, ⟨hv, rfl⟩,
      w.surfaces.length, _, ⟨hn, rfl⟩, w.surfaces, _, ⟨⟨rfl, hl⟩, rfl⟩, w.resume, _,
      ⟨trivial, rfl⟩, w.features, _, ⟨bits, hf, rfl⟩, rfl, rfl⟩

end multiplex_screen_protocol
