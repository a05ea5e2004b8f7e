-- The channel of a Controller connection: frames that are sealed one after the
-- other under a header with kind, capability, epoch and sequence, and opened
-- only in that order. The keys change every so many frames.
import Multiplex.Lib.Bytes
import Multiplex.Lib.Aead
import Multiplex.Domain.Validation
import Multiplex.ControllerSecurity.Types

open Checks Bytes
open multiplex_domain (checked_add)
open multiplex_domain.controller_devices (ControllerCapability)

namespace multiplex_controller_security.transport

def FRAME_MAGIC : List UInt8 := [84, 67, 70, 49]
def FRAME_HEADER_BYTES : Nat := 32
def AEAD_TAG_BYTES : Nat := 16
def REKEY_INTERVAL : Nat := 2 ^ 20
def MAX_SEQUENCE : Nat := 2 ^ 64 - 1 - 2

/-! ## Headers -/

structure Header where
  kind : ControllerFrameKind
  capability : ControllerCapability
  revocation_epoch : RevocationEpoch
  sequence : Nat
  ciphertext_len : Nat

/-- The largest complete frame of a kind, header and tag included. -/
def frame_limit : ControllerFrameKind → Nat
  | .Control => 2 ^ 64 - 1
  | .Terminal => MAX_TERMINAL_FRAME_BYTES
  | .Screen => MAX_SCREEN_FRAME_BYTES

def validate_payload_limit (kind : ControllerFrameKind) (payload_len : Nat) : Result Unit :=
  match kind with
  | .Control => refuseIf .FrameTooLarge (MAX_CONTROL_PAYLOAD_BYTES < payload_len)
  | .Terminal | .Screen =>
    refuseIf .FrameTooLarge
      ((checked_add payload_len (FRAME_HEADER_BYTES + AEAD_TAG_BYTES)).all (frame_limit kind < ·))

def header_bytes (h : Header) : List UInt8 :=
  FRAME_MAGIC ++ beBytes 2 CONTROLLER_V2.major ++ beBytes 2 CONTROLLER_V2.minor ++
    [h.kind.wire, capability_wire h.capability] ++ beBytes 2 0 ++
    beBytes 8 h.revocation_epoch.toNat ++ beBytes 8 h.sequence ++ beBytes 4 h.ciphertext_len

def encode_header (h : Header) : Result (List UInt8) :=
  if h.ciphertext_len < 2 ^ 32 then .ok (header_bytes h) else .error .FrameTooLarge

/-- The number that stands at an offset. -/
def read (width : Nat) (bytes : List UInt8) (offset : Nat) : Nat :=
  beNat ((bytes.drop offset).take width)

def decode_header (bytes : List UInt8) : Result Header := do
  refuseIf .InvalidEncoding (bytes.length < FRAME_HEADER_BYTES)
  refuseIf .InvalidMagic (bytes.take 4 ≠ FRAME_MAGIC)
  ControllerProtocolVersion.require_supported ⟨read 2 bytes 4, read 2 bytes 6⟩
  refuseIf .InvalidEncoding ((bytes.drop 10).take 2 ≠ [0, 0])
  let kind ← ControllerFrameKind.from_wire (bytes.getD 8 0)
  let ciphertext_len := read 4 bytes 28
  let expected_len := FRAME_HEADER_BYTES + ciphertext_len
  refuseIf .InvalidEncoding (bytes.length ≠ expected_len)
  refuseIf .FrameTooLarge (frame_limit kind < expected_len)
  let capability ← capability_from_wire (bytes.getD 9 0)
  pure ⟨kind, capability, UInt64.ofNat (read 8 bytes 12), read 8 bytes 20, ciphertext_len⟩

/-! ## The transport -/

inductive Side where
  | Host
  | Device
  deriving DecidableEq

def Side.other : Side → Side
  | Host => Device
  | Device => Host

/-- The keys of what one end sends, and the key of a state that was wiped. -/
inductive Derived where
  | sent_by (side : Side)
  | zero
  deriving DecidableEq

structure CipherState where
  key : Aead.Key Derived
  nonce : Nat
  deriving DecidableEq

namespace CipherState

def rekey (state : CipherState) : CipherState := { state with key := state.key.rekey }

def zeroize : CipherState := ⟨⟨.zero, 0⟩, 0⟩

/-- Both ends rekey before every so many frames, the first excepted. -/
def at_sequence (state : CipherState) (sequence : Nat) : CipherState :=
  if sequence ≠ 0 ∧ REKEY_INTERVAL ∣ sequence then state.rekey else state

def advanced (state : CipherState) : CipherState := { state with nonce := state.nonce + 1 }

end CipherState

structure ControllerTransport where
  send : CipherState
  receive : CipherState
  policy : AuthorizationPolicy
  failed : Bool

/-- A frame that was sealed: the state after it, its bytes and what went into the cipher. -/
structure Sealing where
  send : CipherState
  frame : List UInt8
  made : Aead.Encryption Derived

structure Opening where
  receive : CipherState
  frame : ControllerFrame
  deriving DecidableEq

def too_large : Option Nat → Result Nat
  | some n => .ok n
  | none => .error .FrameTooLarge

namespace ControllerTransport

def seal_inner (cipher : Aead.Cipher Derived) (t : ControllerTransport) (kind : ControllerFrameKind)
    (capability : ControllerCapability) (revocation_epoch : RevocationEpoch) (payload : List UInt8) :
    Result Sealing := do
  t.policy.require capability revocation_epoch
  validate_payload_limit kind payload.length
  let sequence := t.send.nonce
  refuseIf .SequenceExhausted (MAX_SEQUENCE < sequence)
  let send := t.send.at_sequence sequence
  let ciphertext_len ← too_large (checked_add payload.length AEAD_TAG_BYTES)
  let frame_len ← too_large (checked_add FRAME_HEADER_BYTES ciphertext_len)
  refuseIf .FrameTooLarge (frame_limit kind < frame_len)
  let header ← encode_header ⟨kind, capability, revocation_epoch, sequence, ciphertext_len⟩
  let made := Aead.encrypt cipher send.key send.nonce header payload
  pure ⟨send.advanced, header ++ made.ciphertext, made⟩

def open_inner (made : List (Aead.Encryption Derived)) (t : ControllerTransport)
    (bytes : List UInt8) : Result Opening := do
  let header ← decode_header bytes
  t.policy.require header.capability header.revocation_epoch
  let expected := t.receive.nonce
  refuseIf .DuplicateFrame (header.sequence < expected)
  refuseIf .OutOfOrderFrame (expected < header.sequence)
  refuseIf .SequenceExhausted (MAX_SEQUENCE < header.sequence)
  let receive := t.receive.at_sequence header.sequence
  refuseIf .InvalidEncoding (header.ciphertext_len < AEAD_TAG_BYTES)
  validate_payload_limit header.kind (header.ciphertext_len - AEAD_TAG_BYTES)
  match Aead.decrypt made receive.key receive.nonce (bytes.take FRAME_HEADER_BYTES)
      (bytes.drop FRAME_HEADER_BYTES) with
  | none => throw .AuthenticationFailed
  | some payload =>
    pure ⟨receive.advanced,
      ⟨header.kind, header.capability, header.revocation_epoch, header.sequence, payload⟩⟩

def fail (t : ControllerTransport) : ControllerTransport :=
  { t with send := .zeroize, receive := .zeroize, failed := true }

/-- A call that fails is the last one that does anything. -/
def seal_frame (cipher : Aead.Cipher Derived) (t : ControllerTransport) (kind : ControllerFrameKind)
    (capability : ControllerCapability) (revocation_epoch : RevocationEpoch) (payload : List UInt8) :
    ControllerTransport × Result Sealing :=
  if t.failed then (t, .error .WrongState)
  else
    match t.seal_inner cipher kind capability revocation_epoch payload with
    | .ok sealing => ({ t with send := sealing.send }, .ok sealing)
    | .error error => (t.fail, .error error)

def open_frame (made : List (Aead.Encryption Derived)) (t : ControllerTransport)
    (bytes : List UInt8) : ControllerTransport × Result Opening :=
  if t.failed then (t, .error .WrongState)
  else
    match t.open_inner made bytes with
    | .ok opening => ({ t with receive := opening.receive }, .ok opening)
    | .error error => (t.fail, .error error)

end ControllerTransport

/-! ## Headers read back -/

variable {h : Header} {bytes : List UInt8} {kind : ControllerFrameKind} {payload_len : Nat}

@[simp] theorem length_header_bytes (h : Header) : (header_bytes h).length = FRAME_HEADER_BYTES := by
  simp [header_bytes, FRAME_MAGIC, FRAME_HEADER_BYTES]

theorem encode_header_ok_iff :
    encode_header h = .ok bytes ↔ h.ciphertext_len < 2 ^ 32 ∧ header_bytes h = bytes := by
  unfold encode_header
  by_cases hlt : h.ciphertext_len < 2 ^ 32
  · rw [if_pos hlt, Except.ok.injEq]
    exact (and_iff_right hlt).symm
  · rw [if_neg hlt]
    constructor
    · intro herror
      cases herror
    · intro hok
      exact absurd hok.1 hlt

theorem read_of_slice {width offset n : Nat} (hn : n < 256 ^ width)
    (hslice : (bytes.drop offset).take width = beBytes width n) : read width bytes offset = n := by
  rw [read, hslice, beNat_beBytes hn]

theorem slices_header (h : Header) (body : List UInt8) :
    (header_bytes h ++ body).take 4 = FRAME_MAGIC ∧
    ((header_bytes h ++ body).drop 4).take 2 = beBytes 2 CONTROLLER_V2.major ∧
    ((header_bytes h ++ body).drop 6).take 2 = beBytes 2 CONTROLLER_V2.minor ∧
    (header_bytes h ++ body).getD 8 0 = h.kind.wire ∧
    (header_bytes h ++ body).getD 9 0 = capability_wire h.capability ∧
    ((header_bytes h ++ body).drop 10).take 2 = [0, 0] ∧
    ((header_bytes h ++ body).drop 12).take 8 = beBytes 8 h.revocation_epoch.toNat ∧
    ((header_bytes h ++ body).drop 20).take 8 = beBytes 8 h.sequence ∧
    ((header_bytes h ++ body).drop 28).take 4 = beBytes 4 h.ciphertext_len := by
  refine ⟨?_, ?_, ?_, ?_, ?_, ?_, ?_, ?_, ?_⟩ <;>
    simp [header_bytes, FRAME_MAGIC, List.getD_eq_getElem?_getD, beBytes]

/-- A header reads back as it was written, where the bytes after it are as
many as it says and no more than its kind allows. -/
theorem decode_header_bytes (hsequence : h.sequence < 2 ^ 64) (hlen : h.ciphertext_len < 2 ^ 32)
    (body : List UInt8) : decode_header (header_bytes h ++ body) = (do
      refuseIf .InvalidEncoding (body.length ≠ h.ciphertext_len)
      refuseIf .FrameTooLarge (frame_limit h.kind < FRAME_HEADER_BYTES + h.ciphertext_len)
      pure h) := by
  obtain ⟨hmagic, hmajor, hminor, hkind, hcapability, hreserved, hepoch, hseq, hcipher⟩ :=
    slices_header h body
  have hmajor' := read_of_slice (n := CONTROLLER_V2.major) (by decide) hmajor
  have hminor' := read_of_slice (n := CONTROLLER_V2.minor) (by decide) hminor
  have hepoch' := read_of_slice (by simpa using h.revocation_epoch.toNat_lt) hepoch
  have hseq' := read_of_slice (by simpa using hsequence) hseq
  have hcipher' := read_of_slice (by simpa using hlen) hcipher
  have hlength : (header_bytes h ++ body).length = FRAME_HEADER_BYTES + body.length := by simp
  simp only [decode_header, hmagic, hmajor', hminor', hkind, hcapability, hreserved, hepoch', hseq',
    hcipher', hlength, ControllerFrameKind.from_wire_wire, capability_from_wire_wire]
  simp [refuseIf, ControllerProtocolVersion.require_supported, FRAME_HEADER_BYTES, bind, Except.bind,
    pure, Except.pure]

/-! ## What sealing and opening do -/

/-- The lengths of payloads that go over the connection. -/
def Fits (kind : ControllerFrameKind) (payload_len : Nat) : Prop :=
  match kind with
  | .Control => payload_len ≤ MAX_CONTROL_PAYLOAD_BYTES
  | .Terminal | .Screen => payload_len + (FRAME_HEADER_BYTES + AEAD_TAG_BYTES) ≤ frame_limit kind

theorem validate_payload_limit_ok_iff {u : Unit} :
    validate_payload_limit kind payload_len = .ok u ↔ Fits kind payload_len := by
  have hadd : ∀ limit < 2 ^ 64,
      ((checked_add payload_len (FRAME_HEADER_BYTES + AEAD_TAG_BYTES)).all (limit < ·) = true) ↔
        limit < payload_len + (FRAME_HEADER_BYTES + AEAD_TAG_BYTES) := by
    unfold checked_add
    split
    · simp
    · simp
      omega
  cases kind with
  | Control => simp [validate_payload_limit, Fits]
  | Terminal =>
    simp only [validate_payload_limit, refuseIf_ok_iff, Fits]
    rw [hadd _ (by decide), not_lt]
  | Screen =>
    simp only [validate_payload_limit, refuseIf_ok_iff, Fits]
    rw [hadd _ (by decide), not_lt]

theorem Fits.frame (h : Fits kind payload_len) :
    FRAME_HEADER_BYTES + (payload_len + AEAD_TAG_BYTES) ≤ frame_limit kind ∧
      payload_len + AEAD_TAG_BYTES < 2 ^ 32 := by
  cases kind <;>
    simp only [Fits, frame_limit, FRAME_HEADER_BYTES, AEAD_TAG_BYTES, MAX_CONTROL_PAYLOAD_BYTES,
      MAX_TERMINAL_FRAME_BYTES, MAX_SCREEN_FRAME_BYTES] at * <;>
    omega

def header_of (f : ControllerFrame) : Header :=
  ⟨f.kind, f.capability, f.revocation_epoch, f.sequence, f.payload.length + AEAD_TAG_BYTES⟩

@[simp] theorem nonce_at_sequence (state : CipherState) (sequence : Nat) :
    (state.at_sequence sequence).nonce = state.nonce := by
  unfold CipherState.at_sequence
  split <;> rfl

def sealing_of (cipher : Aead.Cipher Derived) (send : CipherState) (f : ControllerFrame) : Sealing :=
  let made := Aead.encrypt cipher (send.at_sequence f.sequence).key send.nonce
    (header_bytes (header_of f)) f.payload
  ⟨(send.at_sequence f.sequence).advanced, header_bytes (header_of f) ++ made.ciphertext, made⟩

theorem length_sealing_of {cipher : Aead.Cipher Derived} (hcipher : ∀ key nonce ad plaintext,
      (cipher key nonce ad plaintext).length = plaintext.length + AEAD_TAG_BYTES)
    (send : CipherState) (f : ControllerFrame) : (sealing_of cipher send f).frame.length =
      FRAME_HEADER_BYTES + (f.payload.length + AEAD_TAG_BYTES) := by
  simp [sealing_of, Aead.encrypt, hcipher]

section
variable {t : ControllerTransport}

variable {kind : ControllerFrameKind} {capability : ControllerCapability}
  {revocation_epoch : RevocationEpoch} {payload bytes : List UInt8} {opening : Opening}

theorem seal_inner_ok {cipher : Aead.Cipher Derived} {sealing : Sealing}
    (h : t.seal_inner cipher kind capability revocation_epoch payload = .ok sealing) :
    t.policy.require capability revocation_epoch = .ok () ∧ Fits kind payload.length ∧
    t.send.nonce ≤ MAX_SEQUENCE ∧
    sealing = sealing_of cipher t.send ⟨kind, capability, revocation_epoch, t.send.nonce, payload⟩ := by
  simp only [ControllerTransport.seal_inner, bind_ok_iff, refuseIf_ok_iff, pure_ok_iff,
    encode_header_ok_iff, validate_payload_limit_ok_iff, not_lt] at h
  obtain ⟨_, hpolicy, _, hfits, _, hsequence, ciphertext_len, hcipher, _, _, _, _, header,
    ⟨_, hheader⟩, hsealing⟩ := h
  have hlen : ciphertext_len = payload.length + AEAD_TAG_BYTES := by
    unfold checked_add at hcipher
    split at hcipher
    · exact (Except.ok.inj hcipher).symm
    · cases hcipher
  subst hlen hheader hsealing
  exact ⟨hpolicy, hfits, hsequence, by simp [sealing_of, header_of]⟩

variable (cipher : Aead.Cipher Derived)

theorem seal_inner_of_fits (hpolicy : t.policy.require capability revocation_epoch = .ok ())
    (hfits : Fits kind payload.length) (hsequence : t.send.nonce ≤ MAX_SEQUENCE) :
    t.seal_inner cipher kind capability revocation_epoch payload =
      .ok (sealing_of cipher t.send ⟨kind, capability, revocation_epoch, t.send.nonce, payload⟩) := by
  obtain ⟨hframe, hlen⟩ := hfits.frame
  have hlimit : validate_payload_limit kind payload.length = .ok () :=
    validate_payload_limit_ok_iff.mpr hfits
  have hheader : encode_header ⟨kind, capability, revocation_epoch, t.send.nonce,
      payload.length + AEAD_TAG_BYTES⟩ = .ok (header_bytes ⟨kind, capability, revocation_epoch,
        t.send.nonce, payload.length + AEAD_TAG_BYTES⟩) := encode_header_ok_iff.mpr ⟨hlen, rfl⟩
  have hadd : checked_add payload.length AEAD_TAG_BYTES = some (payload.length + AEAD_TAG_BYTES) := by
    unfold checked_add
    rw [if_pos (by omega)]
  have hadd' : checked_add FRAME_HEADER_BYTES (payload.length + AEAD_TAG_BYTES) =
      some (FRAME_HEADER_BYTES + (payload.length + AEAD_TAG_BYTES)) := by
    unfold checked_add
    rw [if_pos (by simp only [FRAME_HEADER_BYTES]; omega)]
  simp [ControllerTransport.seal_inner, hpolicy, hlimit, hadd, hadd', hheader, too_large, refuseIf,
    not_lt.mpr hframe, not_lt.mpr hsequence, bind, Except.bind, pure, Except.pure, sealing_of, header_of]

variable {made : List (Aead.Encryption Derived)}

theorem open_inner_granted (h : t.open_inner made bytes = .ok opening) :
    t.policy.require opening.frame.capability opening.frame.revocation_epoch = .ok () := by
  simp only [ControllerTransport.open_inner, bind_ok_iff, refuseIf_ok_iff, not_lt] at h
  obtain ⟨header, _, _, hpolicy, _, _, _, _, _, _, _, _, _, _, h⟩ := h
  split at h
  · cases h
  · obtain rfl := Except.ok.inj h
    exact hpolicy

/-- What opens was made, under the key and the nonce that are next and for
the header it came with. -/
theorem open_inner_ok (h : t.open_inner made bytes = .ok opening) :
    ∃ header, decode_header bytes = .ok header ∧ header.sequence = t.receive.nonce ∧
      opening.receive = (t.receive.at_sequence t.receive.nonce).advanced ∧
      opening.frame = ⟨header.kind, header.capability, header.revocation_epoch, header.sequence,
        opening.frame.payload⟩ ∧
      ⟨(t.receive.at_sequence t.receive.nonce).key, t.receive.nonce, bytes.take FRAME_HEADER_BYTES,
        opening.frame.payload, bytes.drop FRAME_HEADER_BYTES⟩ ∈ made := by
  simp only [ControllerTransport.open_inner, bind_ok_iff, refuseIf_ok_iff, not_lt] at h
  obtain ⟨header, hheader, _, _, _, hduplicate, _, horder, _, _, _, _, _, _, h⟩ := h
  have hsequence : header.sequence = t.receive.nonce := le_antisymm horder hduplicate
  rw [hsequence] at h
  split at h
  · cases h
  · rename_i payload hdecrypt
    obtain rfl := Except.ok.inj h
    rw [nonce_at_sequence] at hdecrypt
    exact ⟨header, hheader, hsequence, rfl, by simp [hsequence], Aead.made_of_decrypt hdecrypt⟩

/-- A frame opens that fits, is granted, comes in its turn and was made. -/
theorem open_inner_sealed {f : ControllerFrame} {ciphertext : List UInt8}
    (hpolicy : t.policy.require f.capability f.revocation_epoch = .ok ())
    (hfits : Fits f.kind f.payload.length) (hturn : f.sequence = t.receive.nonce)
    (hsequence : f.sequence ≤ MAX_SEQUENCE)
    (hlength : ciphertext.length = f.payload.length + AEAD_TAG_BYTES)
    (hmade : Aead.decrypt made (t.receive.at_sequence f.sequence).key f.sequence
      (header_bytes (header_of f)) ciphertext = some f.payload) :
    t.open_inner made (header_bytes (header_of f) ++ ciphertext) =
      .ok ⟨(t.receive.at_sequence f.sequence).advanced, f⟩ := by
  obtain ⟨hframe, hlen⟩ := hfits.frame
  have hheader : decode_header (header_bytes (header_of f) ++ ciphertext) = .ok (header_of f) := by
    rw [decode_header_bytes (by simp only [header_of, MAX_SEQUENCE] at *; omega) hlen]
    simp [header_of, hlength, refuseIf, not_lt.mpr hframe, bind, Except.bind, pure, Except.pure]
  have hhead : (header_bytes (header_of f) ++ ciphertext).take FRAME_HEADER_BYTES =
      header_bytes (header_of f) := by
    rw [← length_header_bytes (header_of f), List.take_left]
  have hbody : (header_bytes (header_of f) ++ ciphertext).drop FRAME_HEADER_BYTES = ciphertext := by
    rw [← length_header_bytes (header_of f), List.drop_left]
  have hlimit : validate_payload_limit f.kind f.payload.length = .ok () :=
    validate_payload_limit_ok_iff.mpr hfits
  have hfresh : ¬ MAX_SEQUENCE < f.sequence := not_lt.mpr hsequence
  simp only [ControllerTransport.open_inner, hheader, hhead, hbody]
  simp only [header_of] at hmade
  simp [header_of, refuseIf, bind, Except.bind, pure, Except.pure, hpolicy, ← hturn, hfresh, hlimit,
    hmade]

/-! ## Calls -/

theorem seal_frame_active (hactive : t.failed = false) (cipher : Aead.Cipher Derived)
    (kind : ControllerFrameKind) (capability : ControllerCapability)
    (revocation_epoch : RevocationEpoch) (payload : List UInt8) :
    t.seal_frame cipher kind capability revocation_epoch payload =
      match t.seal_inner cipher kind capability revocation_epoch payload with
      | .ok sealing => ({ t with send := sealing.send }, .ok sealing)
      | .error error => (t.fail, .error error) := by
  simp [ControllerTransport.seal_frame, hactive]

theorem open_frame_active (hactive : t.failed = false) (made : List (Aead.Encryption Derived))
    (bytes : List UInt8) : t.open_frame made bytes =
      match t.open_inner made bytes with
      | .ok opening => ({ t with receive := opening.receive }, .ok opening)
      | .error error => (t.fail, .error error) := by
  simp [ControllerTransport.open_frame, hactive]

/-- A call keeps the policy, and only a call that fails ends the transport. -/
theorem seal_frame_keeps (kind : ControllerFrameKind) (capability : ControllerCapability)
    (revocation_epoch : RevocationEpoch) (payload : List UInt8) :
    (t.seal_frame cipher kind capability revocation_epoch payload).1.policy = t.policy ∧
    ∀ sealing, (t.seal_frame cipher kind capability revocation_epoch payload).2 = .ok sealing →
      (t.seal_frame cipher kind capability revocation_epoch payload).1.failed = false := by
  by_cases hfailed : t.failed = true
  · simp [ControllerTransport.seal_frame, hfailed]
  · rw [Bool.not_eq_true] at hfailed
    rw [seal_frame_active hfailed]
    cases t.seal_inner cipher kind capability revocation_epoch payload with
    | ok sealing => simp [hfailed]
    | error error => simp [ControllerTransport.fail]

theorem open_frame_keeps (made : List (Aead.Encryption Derived)) (bytes : List UInt8) :
    (t.open_frame made bytes).1.policy = t.policy ∧
    ∀ opening, (t.open_frame made bytes).2 = .ok opening →
      (t.open_frame made bytes).1.failed = false := by
  by_cases hfailed : t.failed = true
  · simp [ControllerTransport.open_frame, hfailed]
  · rw [Bool.not_eq_true] at hfailed
    rw [open_frame_active hfailed]
    cases t.open_inner made bytes with
    | ok opening => simp [hfailed]
    | error error => simp [ControllerTransport.fail]

end

end multiplex_controller_security.transport
