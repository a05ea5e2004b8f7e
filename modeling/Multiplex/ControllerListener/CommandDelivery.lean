-- A command from the device to the Host: encoded, sealed, written, read,
-- opened and decoded. It arrives as it was sent where its text fits.
import Multiplex.ControllerListener.CommandText

open Checks
open multiplex_controller_security (MAX_TERMINAL_FRAME_BYTES)
open multiplex_controller_security.transport
open multiplex_controller_listener.protocol
open multiplex_controller_listener.runtime (framed read_bounded_frame read_bounded_frame_framed)

namespace multiplex_controller_listener.client_channel

/-- The two ends of a connection that works: both go on under one policy, and what the device
sealed so far has been opened. -/
structure Linked (cipher : Aead.Cipher Derived)
    (policy : multiplex_controller_security.AuthorizationPolicy) (w : World)
    (channel : ControllerClientChannel) : Prop where
  reached : Reached cipher (fun _ => policy) w
  transport : channel.transport = (w.ends .Device).transport
  device : (w.ends .Device).transport.failed = false
  host : (w.ends .Host).transport.failed = false
  arrived : (w.ends .Host).opened = (w.ends .Device).sealed
  capabilities : channel.capabilities = policy.granted
  epoch : UInt64.ofNat channel.revocation_epoch = policy.revocation_epoch
  sequence : (w.ends .Device).sealed.length ≤ MAX_SEQUENCE

/-- What the device and the Host have made once a text is sealed. -/
def made_with (cipher : Aead.Cipher Derived) (w : World) (channel : ControllerClientChannel)
    (envelope : protocol.ControllerCommandEnvelope) : List (Aead.Encryption Derived) :=
  (w.step cipher (.seal .Device .Control envelope.command.kind.capability
    (UInt64.ofNat channel.revocation_epoch) envelope.text)).made

/-- The command encodes and decodes, and the frame that the channel sends is read, opened and
decoded on the Host. -/
structure Delivered (cipher : Aead.Cipher Derived) (from_slice : Reader) (w : World)
    (channel : ControllerClientChannel) (envelope : protocol.ControllerCommandEnvelope)
    (text frame : List UInt8) (opening : Opening) : Prop where
  encodes : encode_command envelope = .ok text
  decodes : decode_command from_slice text = .ok envelope
  sends : (channel.send cipher envelope.command_id envelope.command envelope.deadline_millis).2 =
    .ok frame
  writes : runtime.write_bounded_frame frame MAX_TERMINAL_FRAME_BYTES = .ok ()
  reads : ∀ rest, read_bounded_frame (framed frame ++ rest) MAX_TERMINAL_FRAME_BYTES =
    .ok (frame, rest)
  opens : ((w.ends .Host).transport.open_frame (made_with cipher w channel envelope) frame).2 =
    .ok opening
  kind : opening.frame.kind = .Control
  arrives : decode_command from_slice opening.frame.payload = .ok envelope

section
variable {cipher : Aead.Cipher Derived} {policy : multiplex_controller_security.AuthorizationPolicy}
  {w : World} {channel : ControllerClientChannel} {from_slice : Reader}
  {envelope : protocol.ControllerCommandEnvelope}

section
variable (hvalid : envelope.validate = .ok ())
include hvalid

theorem encode_command_ok_iff {text : List UInt8} :
    encode_command envelope = .ok text ↔
      envelope.text.length ≤ multiplex_controller_security.MAX_CONTROL_PAYLOAD_BYTES ∧
        envelope.text = text := by
  simp only [encode_command, hvalid, encode_bounded, bind, Except.bind]
  by_cases hlong : multiplex_controller_security.MAX_CONTROL_PAYLOAD_BYTES < envelope.text.length
  · rw [if_pos hlong]
    constructor
    · intro herror
      cases herror
    · omega
  · rw [if_neg hlong, Except.ok.injEq]
    exact (and_iff_right (not_lt.mp hlong)).symm

theorem envelope_new (hgeneration : channel.session_generation = envelope.session_generation) :
    protocol.ControllerCommandEnvelope.new envelope.command_id channel.session_generation
      envelope.deadline_millis envelope.command = envelope := by
  simp only [ControllerCommandEnvelope.validate, bind_ok_iff, refuseIf_ok_iff] at hvalid
  obtain ⟨_, hversion, -⟩ := hvalid
  have hone : envelope.version = CONTROLLER_COMMAND_VERSION := by
    simp only [CONTROLLER_COMMAND_VERSION] at hversion ⊢
    omega
  rw [hgeneration, protocol.ControllerCommandEnvelope.new, ← hone]

theorem decode_text (hread : from_slice.command envelope.text = some envelope)
    (hfits : envelope.text.length ≤ multiplex_controller_security.MAX_CONTROL_PAYLOAD_BYTES) :
    decode_command from_slice envelope.text = .ok envelope := by
  have hne : envelope.text ≠ [] := by
    apply List.ne_nil_of_length_pos
    rw [ControllerCommandEnvelope.length_text]
    omega
  simp [decode_command, refuseIf, hne, not_lt.mpr hfits, hread, or_malformed, hvalid, bind, Except.bind,
    pure, Except.pure]

end

theorem Linked.delivers (hlinked : Linked cipher policy w channel)
    (hcipher : ∀ key nonce ad plaintext, (cipher key nonce ad plaintext).length =
        plaintext.length + multiplex_controller_security.transport.AEAD_TAG_BYTES)
    (hgranted : policy.granted.contains envelope.command.kind.capability = true)
    (hgeneration : channel.session_generation = envelope.session_generation)
    (hvalid : envelope.validate = .ok ()) (hread : from_slice.command envelope.text = some envelope)
    (hfits : envelope.text.length ≤ multiplex_controller_security.MAX_CONTROL_PAYLOAD_BYTES) :
    ∃ text frame opening, Delivered cipher from_slice w channel envelope text frame opening := by
  have hpolicy : policy.require envelope.command.kind.capability
      (UInt64.ofNat channel.revocation_epoch) = .ok () := by
    simp [multiplex_controller_security.AuthorizationPolicy.require, hlinked.epoch, hgranted]
  have hdecodes := decode_text hvalid hread hfits
  have hencodes := (encode_command_ok_iff hvalid).mpr ⟨hfits, rfl⟩
  have hlimit : Fits .Control envelope.text.length := hfits
  obtain ⟨hseal, hstep⟩ := hlinked.reached.seal_next hlinked.device hpolicy hlimit hlinked.sequence
  have hreached := hlinked.reached.seal .Device .Control envelope.command.kind.capability
    (UInt64.ofNat channel.revocation_epoch) envelope.text
  let f : multiplex_controller_security.ControllerFrame := ⟨.Control,
    envelope.command.kind.capability, UInt64.ofNat channel.revocation_epoch,
    (w.ends .Device).sealed.length, envelope.text⟩
  have hlength : (bytes_of cipher .Device f).length = 32 + (envelope.text.length + 16) := by
    simp [bytes_of, made_of, Aead.encrypt, hcipher, f,
      multiplex_controller_security.transport.FRAME_HEADER_BYTES,
      multiplex_controller_security.transport.AEAD_TAG_BYTES]
  have hwrites :
      runtime.write_bounded_frame (bytes_of cipher .Device f) MAX_TERMINAL_FRAME_BYTES = .ok () := by
    simp only [runtime.write_bounded_frame, bind_ok_iff, refuseIf_ok_iff]
    refine ⟨(), List.ne_nil_of_length_pos (by omega), ?_⟩
    simp only [multiplex_controller_security.MAX_CONTROL_PAYLOAD_BYTES,
      MAX_TERMINAL_FRAME_BYTES] at hfits ⊢
    omega
  have hsends : (channel.send cipher envelope.command_id envelope.command envelope.deadline_millis).2 =
      .ok (bytes_of cipher .Device f) := by
    rw [← hlinked.capabilities] at hgranted
    simp only [ControllerClientChannel.send, hgranted, envelope_new hvalid hgeneration, hencodes,
      hlinked.transport, hseal]
    simp [hwrites, f]
  -- the Host is where it was, and the frame is the next one for it
  let after := w.step cipher (.seal .Device .Control envelope.command.kind.capability
    (UInt64.ofNat channel.revocation_epoch) envelope.text)
  have hhost : after.ends .Host = w.ends .Host := by
    simp only [after, hstep]
    exact World.ends_set_of_ne w _ (show Side.Host ≠ Side.Device by decide)
  have hnext : (after.ends Side.Host.other).sealed[(after.ends .Host).opened.length]? = some f := by
    rw [hhost, hlinked.arrived]
    simp [after, hstep, Side.other, f]
  have hfailed : (after.ends .Host).transport.failed = false := by
    rw [hhost]
    exact hlinked.host
  have hopens : (after.ends .Host).transport.open_inner after.made (bytes_of cipher .Device f) =
      .ok ⟨state_at Side.Host.other ((after.ends .Host).opened.length + 1), f⟩ :=
    hreached.open_next hcipher rfl hfailed hnext
  have hmade : made_with cipher w channel envelope = after.made := rfl
  have hreads : ((w.ends .Host).transport.open_frame (made_with cipher w channel envelope)
      (bytes_of cipher .Device f)).2 =
        .ok ⟨state_at Side.Host.other ((after.ends .Host).opened.length + 1), f⟩ := by
    rw [hmade, ← hhost, open_frame_active hfailed, hopens]
  exact ⟨envelope.text, bytes_of cipher .Device f, _, hencodes, hdecodes, hsends, hwrites,
    read_bounded_frame_framed hwrites, hreads, rfl, hdecodes⟩

/-- Every valid command arrives as it was sent, exactly where there is room for what is typed. -/
theorem a_command_arrives_iff_its_input_has_room (cipher : Aead.Cipher Derived)
    (hcipher : ∀ key nonce ad plaintext, (cipher key nonce ad plaintext).length =
        plaintext.length + multiplex_controller_security.transport.AEAD_TAG_BYTES)
    (policy : multiplex_controller_security.AuthorizationPolicy) (w : World)
    (channel : ControllerClientChannel) (from_slice : Reader)
    (envelope : protocol.ControllerCommandEnvelope)
    (hlinked : Linked cipher policy w channel)
    (hgranted : policy.granted.contains envelope.command.kind.capability = true)
    (hgeneration : channel.session_generation = envelope.session_generation)
    (hvalid : envelope.validate = .ok ()) (hrange : envelope.InRange)
    (hread : from_slice.command envelope.text = some envelope) :
    (∃ text frame opening, Delivered cipher from_slice w channel envelope text frame opening) ↔
      RoomForInput envelope := by
  rw [← text_fits_iff hvalid hrange]
  constructor
  · rintro ⟨text, frame, opening, hdelivered⟩
    exact ((encode_command_ok_iff hvalid).mp hdelivered.encodes).1
  · exact hlinked.delivers hcipher hgranted hgeneration hvalid hread

end

def typed (bytes : List UInt8) : protocol.ControllerCommandEnvelope :=
  .new 9 1 1000 (.Input 5 1 bytes)

def readerOf (envelope : protocol.ControllerCommandEnvelope) : Reader :=
  ⟨fun bytes => if bytes = envelope.text then some envelope else none, fun _ => none⟩

def samplePolicy : multiplex_controller_security.AuthorizationPolicy := ⟨⟨0x1ff⟩, 3⟩

def sampleChannel : ControllerClientChannel where
  transport :=
    ((multiplex_controller_security.transport.start fun _ => samplePolicy).ends .Device).transport
  capabilities := ⟨0x1ff⟩
  session_generation := 1
  revocation_epoch := 3
  pending := fun _ => none

theorem linked_start : Linked paddedCipher samplePolicy
    (multiplex_controller_security.transport.start fun _ => samplePolicy) sampleChannel where
  reached := reached_start paddedCipher fun _ => samplePolicy
  transport := rfl
  device := rfl
  host := rfl
  arrived := rfl
  capabilities := rfl
  epoch := rfl
  sequence := by decide

theorem two_letters_arrive : ∃ text frame opening,
    Delivered paddedCipher (readerOf (typed [104, 105]))
      (multiplex_controller_security.transport.start fun _ => samplePolicy) sampleChannel
      (typed [104, 105]) text
      frame opening :=
  (a_command_arrives_iff_its_input_has_room paddedCipher (by simp [paddedCipher]) samplePolicy _
    sampleChannel (readerOf (typed [104, 105])) (typed [104, 105]) linked_start (by decide) rfl
    (by decide) ⟨by decide, by decide, by decide, (by decide : 1 < 2 ^ 64)⟩ (by simp [readerOf])).mpr
    (by
      show _ ≤ multiplex_controller_security.MAX_CONTROL_PAYLOAD_BYTES
      decide)

/-- Valid input whose digits, with the characters that are always there, are too many for a payload. -/
theorem long_input_does_not_encode {bytes : List UInt8} (hne : bytes ≠ [])
    (hmax : bytes.length ≤ MAX_INPUT_BYTES)
    (hlong : multiplex_controller_security.MAX_CONTROL_PAYLOAD_BYTES <
      (bytes.map fun b => digits b.toNat).sum + (bytes.length - 1) + 218) :
    (typed bytes).validate = .ok () ∧ encode_command (typed bytes) = .error frame_too_large := by
  have hcommand : (ControllerCommand.Input 5 1 bytes).validate = .ok () := by
    simp only [ControllerCommand.validate, refuseIf_ok_iff, not_or]
    exact ⟨hne, not_lt.mpr hmax⟩
  have hvalid : (typed bytes).validate = .ok () := by
    simp [typed, ControllerCommandEnvelope.new, ControllerCommandEnvelope.validate, hcommand,
      refuseIf, CONTROLLER_COMMAND_VERSION, bind, Except.bind]
  have hlength : multiplex_controller_security.MAX_CONTROL_PAYLOAD_BYTES <
      (typed bytes).text.length := by
    have hinput : (typed bytes).command.text.length =
        (ControllerCommand.Input 5 1 bytes).text.length := rfl
    rw [ControllerCommandEnvelope.length_text, hinput, length_input_text]
    omega
  simp [encode_command, hvalid, encode_bounded, hlength, bind, Except.bind]

/-- As many bytes as may be typed, each with three digits, are valid and do not encode. -/
theorem a_full_input_does_not_encode :
    (typed (List.replicate MAX_INPUT_BYTES 255)).validate = .ok () ∧
    encode_command (typed (List.replicate MAX_INPUT_BYTES 255)) = .error frame_too_large := by
  have hdigits : digits (255 : UInt8).toNat = 3 := by decide
  apply long_input_does_not_encode
  · intro hnil
    have hlength := congrArg List.length hnil
    rw [List.length_replicate] at hlength
    exact absurd hlength (by decide)
  · rw [List.length_replicate]
  · rw [List.map_replicate, List.sum_replicate, List.length_replicate, hdigits]
    simp only [multiplex_controller_security.MAX_CONTROL_PAYLOAD_BYTES, MAX_INPUT_BYTES, smul_eq_mul]
    omega

end multiplex_controller_listener.client_channel
