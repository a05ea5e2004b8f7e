-- A client whose calls are not cut off is in step with the Host, whatever it
-- asks and however the bytes come. A call that is cancelled between its request
-- and the answer leaves the client ready, and the next call gets that answer.
import Multiplex.SessionHost.Exchange

open Bytes Chunks
open multiplex_host_protocol
open multiplex_store.journal (castagnoli)

namespace multiplex_client.exchange

section
variable {codec : WireCodec} {w : World} {o : Ongoing} {stream : AsyncEnvelopeStream}

/-! ## Frames and their owners -/

variable {crc32c : List UInt8 → UInt32} {envelope : WireEnvelope} {rest : List WireEnvelope}
  {client : HostClient} {request_id : Uuid}

theorem length_of_decode {f : List UInt8} {e : WireEnvelope}
    (h : WireEnvelope.decode crc32c f = .ok e) :
    f.length = ENVELOPE_HEADER_BYTES + e.payload.length := by
  have hlong : 36 ≤ f.length := (header_of_decode h).long
  have hpayload : e.payload = f.drop 36 := by
    unfold WireEnvelope.decode at h
    simp only at h
    repeat (split at h; · cases h)
    split at h
    · cases h
      rfl
    · cases h
  rw [hpayload, List.length_drop]
  unfold ENVELOPE_HEADER_BYTES
  omega

variable {client' : HostClient} {envelopes : List WireEnvelope} {chunk : List Byte}

theorem push_of_drain {d : FrameDecoder} {c rest : List UInt8}
    (hfit : d.buffer.length + c.length ≤ MAX_FRAME_BYTES)
    (hd : drain (read_frame crc32c) (d.buffer ++ c) = (envelopes, .ok rest)) :
    d.push crc32c c = (.ok envelopes, ⟨rest⟩) := by
  unfold FrameDecoder.push
  rw [if_neg (not_lt.mpr hfit)]
  rcases turns_eq_drainFor crc32c ((d.buffer ++ c).length + 1) (d.buffer ++ c) with
    ⟨d', e, -, herror⟩ | ⟨ms, left, hturns, hdrain⟩
  · unfold drain at hd
    rw [hd] at herror
    cases herror
  · unfold drain at hd
    rw [hd] at hdrain
    cases hdrain
    exact hturns

theorem owned_of_drain {number : Nat} (bytes : List UInt8) :
    ∀ {owners : List Nat} {envelopes : List WireEnvelope} {rest : List UInt8},
      owners.length = bytes.length → (∀ owner ∈ owners, owner = number) →
      drain (read_frame crc32c) bytes = (envelopes, .ok rest) →
      (∀ p ∈ owned owners envelopes, p.1 = number) ∧
        (owned owners envelopes).map Prod.snd = envelopes := by
  induction hn : bytes.length using Nat.strong_induction_on generalizing bytes with
  | _ n ih =>
    intro owners envelopes rest hlen howners hd
    rw [drain_step (framed_read_frame crc32c).toIncremental] at hd
    rcases hr : read_frame crc32c bytes with e | _ | ⟨m, left⟩
    · rw [hr] at hd
      cases hd
    · rw [hr] at hd
      cases hd
      simp [owned]
    · rw [hr] at hd
      simp at hd
      obtain ⟨rfl, hrest⟩ := hd
      obtain ⟨f, hheader, rfl, hdecode⟩ := read_frame_message hr
      have hf := length_of_decode hdecode
      have hlong : 36 ≤ f.length := hheader.long
      rw [List.length_append] at hn
      obtain ⟨hown, hmap⟩ := @ih left.length (by omega) left rfl
        (owners.drop (ENVELOPE_HEADER_BYTES + m.payload.length)) _ _
        (by rw [List.length_drop]; omega)
        (fun owner howner => howners owner (List.mem_of_mem_drop howner)) (Prod.ext rfl hrest)
      have hhead : owners.headD 0 = number := by
        cases owners with
        | nil =>
          rw [List.length_nil] at hlen
          omega
        | cons owner owners => exact howners owner (by simp)
      constructor
      · intro p hp
        rcases List.mem_cons.mp hp with rfl | hp
        · exact hhead
        · exact hown p hp
      · simp [owned, hmap]

/-! ## What a call hears -/

theorem accept_handshake_stream {response : HandshakeResponse}
    (h : client.accept_handshake response = .ok client') : client'.stream = client.stream := by
  unfold HostClient.accept_handshake at h
  cases hid : decode_uuid response.session_id with
  | error e =>
    rw [hid] at h
    cases h
  | ok session_id =>
    simp only [hid, bind, Except.bind] at h
    repeat (split at h; · cases h)
    cases h
    rfl

theorem established_stream {reply : Except ClientErrorCode Reply}
    (h : reply.bind client.handshake_reply = .ok client') : client'.stream = client.stream := by
  cases reply with
  | error e => cases h
  | ok reply =>
    cases reply with
    | HandshakeResponse response => exact accept_handshake_stream h
    | _ => cases h

theorem attach_turn_cases (codec : WireCodec) (client : HostClient) (from_sequence : Nat)
    (a : Attaching) (reply : Reply) :
    (∃ client' a', client.attach_turn codec from_sequence a reply = .More client' a' ∧
      client'.state = client.state ∧ client'.stream = client.stream ∧
      ((∃ ready, reply = .ReadyEvent ready) ∨ (∃ output, reply = .OutputEvent output) ∨
        ∃ snapshot, reply = .ViewportSnapshotEvent snapshot)) ∨
    ∃ client' result, client.attach_turn codec from_sequence a reply = .Done client' result ∧
      client'.state = client.state ∧ client'.stream = client.stream := by
  cases reply <;> unfold HostClient.attach_turn <;> simp only <;> (repeat' split) <;> simp

theorem hear_more {call : Call} {a a' : Attaching}
    (h : client.hear codec call request_id a envelope = .More client' a') :
    call.attaches = true ∧ continues codec envelope = true ∧ client'.state = client.state ∧
      client'.stream = client.stream := by
  unfold HostClient.hear at h
  simp only at h
  split at h
  · unfold HostClient.established at h
    split at h <;> cases h
  · split at h
    · cases h
    · rename_i reply from_sequence viewport hreply hcall
      obtain ⟨client'', a'', hturn, hstate, hstream, hkind⟩ | ⟨client'', result, hturn, -⟩ :=
        attach_turn_cases codec client from_sequence a reply
      · rw [hturn] at h
        cases h
        refine ⟨rfl, ?_, hstate, hstream⟩
        split at hreply
        · cases hreply
        · unfold decode_checked_payload at hreply
          unfold continues
          split at hreply
          · cases hreply
          · cases hreply
          · rename_i hdecode
            split at hreply <;> cases hreply
            rw [hdecode]
            rcases hkind with ⟨_, rfl⟩ | ⟨_, rfl⟩ | ⟨_, rfl⟩ <;> rfl
      · rw [hturn] at h
        cases h
    · cases h

theorem hear_done {call : Call} {a : Attaching} {result : Except ClientErrorCode Answer}
    (h : client.hear codec call request_id a envelope = .Done client' result) :
    client'.state = .Ready → client'.stream = client.stream := by
  unfold HostClient.hear at h
  simp only at h
  split at h
  · unfold HostClient.established at h
    split at h
    · rename_i accepted haccepted
      cases h
      exact fun _ => (established_stream haccepted : accepted.stream = client.stream)
    · cases h
      intro hready
      cases hready
  · split at h
    · cases h
      exact fun _ => rfl
    · rename_i reply from_sequence viewport hreply hcall
      obtain ⟨client'', a'', hturn, -⟩ | ⟨client'', result', hturn, -, hstream⟩ :=
        attach_turn_cases codec client from_sequence a reply
      · rw [hturn] at h
        cases h
      · rw [hturn] at h
        cases h
        exact fun _ => hstream
    · cases h
      exact fun _ => rfl

/-! ## The frames that wait -/

theorem not_attaches {call : Call} (h : call.establishes = true) : call.attaches = false := by
  cases call <;> simp_all [Call.establishes, Call.attaches]

theorem heeds_of_not_attaches {call : Call} (hcall : call.attaches = false) (request_id : Uuid)
    (a : Attaching) (client : HostClient) (envelopes : List WireEnvelope) :
    heeds codec call request_id a client envelopes = true := by
  cases envelopes with
  | nil => rfl
  | cons envelope rest =>
    unfold heeds
    cases hhear : client.hear codec call request_id a envelope with
    | More client' a' =>
      obtain ⟨hattaches, -⟩ := hear_more hhear
      rw [hcall] at hattaches
      cases hattaches
    | Done client' result => simp [hcall]

theorem answers_to_cons {attaches : Bool}
    (h : answers_to codec attaches (envelope :: rest) = true) :
    if attaches && continues codec envelope then answers_to codec attaches rest = true
    else rest = [] := by
  cases rest with
  | nil =>
    simp only [answers_to, Bool.not_eq_true'] at h
    simp [h]
  | cons next rest =>
    simp [answers_to] at h
    rw [if_pos (by simp [h.1])]
    exact h.2

structure Ongoing.Same (o o' : Ongoing) : Prop where
  number : o'.number = o.number
  call : o'.call = o.call
  frame : o'.frame = o.frame
  unsent : o'.unsent = o.unsent
  own : (∀ owner ∈ o.took, owner = o.number) → ∀ owner ∈ o'.took, owner = o'.number

/-- A call that goes on waits for the rest of its answer, and one that ends has had all of it. -/
theorem settleWith_spec {pending left : List (Nat × WireEnvelope)} {o' : Ongoing}
    {result : Option (Except ClientErrorCode Answer)} (hown : ∀ p ∈ pending, p.1 = o.number)
    (hshape : answers_to codec o.call.attaches (pending.map Prod.snd ++ rest) = true)
    (hheeds : heeds codec o.call o.request_id o.attaching client (pending.map Prod.snd) = true)
    (h : World.settleWith codec o client pending = (client', left, o', result)) :
    o.Same o' ∧ left = [] ∧
      match result with
      | none => answers_to codec o.call.attaches rest = true ∧ client'.state = client.state ∧
          client'.stream = client.stream
      | some _ => rest = [] ∧ (client'.state = .Ready → client'.stream = client.stream) := by
  induction pending generalizing o client with
  | nil =>
    obtain ⟨rfl, rfl, rfl, rfl⟩ := h
    exact ⟨⟨rfl, rfl, rfl, rfl, id⟩, rfl, hshape, rfl, rfl⟩
  | cons p pending ih =>
    obtain ⟨owner, envelope⟩ := p
    have howner : owner = o.number := hown _ (List.mem_cons_self)
    rw [List.map_cons, List.cons_append] at hshape
    have hnext := answers_to_cons hshape
    simp only [List.map_cons, heeds] at hheeds
    simp only [World.settleWith] at h
    cases hhear : client.hear codec o.call o.request_id o.attaching envelope with
    | More client'' attaching =>
      obtain ⟨hattaches, hcontinues, hstate, hstream⟩ := hear_more hhear
      rw [hhear] at h hheeds
      simp [hattaches, hcontinues] at hnext
      obtain ⟨hsame, hleft, hresult⟩ := ih
        (o := { o with took := o.took ++ [owner], attaching })
        (fun p hp => hown p (List.mem_cons_of_mem _ hp)) (by simpa [hattaches] using hnext) hheeds h
      refine ⟨⟨hsame.number, hsame.call, hsame.frame, hsame.unsent, fun htook => hsame.own ?_⟩, hleft, ?_⟩
      · intro x hx
        rcases List.mem_append.mp hx with hx | hx
        · exact htook x hx
        · rw [List.mem_singleton.mp hx, howner]
      · cases result with
        | none => exact ⟨hresult.1, hresult.2.1.trans hstate, hresult.2.2.trans hstream⟩
        | some result =>
          refine ⟨hresult.1, fun hready => (hresult.2 hready).trans hstream⟩
    | Done client'' ended =>
      rw [hhear] at h hheeds
      obtain ⟨rfl, rfl, rfl, rfl⟩ := h
      simp only [Bool.not_eq_true'] at hheeds
      simp [hheeds] at hnext
      refine ⟨⟨rfl, rfl, rfl, rfl, fun htook x hx => ?_⟩, hnext.1, hnext.2, hear_done hhear⟩
      rcases List.mem_append.mp hx with hx | hx
      · exact htook x hx
      · rw [List.mem_singleton.mp hx, howner]

/-! ## The phases of a call -/

/-- The bytes of a request on their way, or a part of its answer. -/
inductive Phase (codec : WireCodec) (o : Ongoing) (stream : AsyncEnvelopeStream) : Prop where
  | asks (sent : List UInt8) (frame : o.frame = sent ++ o.unsent)
      (to_host : stream.to_host = tagged o.number sent) (to_client : stream.to_client = [])
      (buffer : stream.decoder.buffer = []) (owners : stream.owners = [])
      (pending : stream.pending = [])
  | hears (rest : List WireEnvelope) (unsent : o.unsent = []) (to_host : stream.to_host = [])
      (coming : drain (read_frame codec.crc32c)
        (stream.decoder.buffer ++ stream.to_client.map Prod.snd) = (rest, .ok []))
      (shape : answers_to codec o.call.attaches rest = true)
      (owner : ∀ owner ∈ stream.owners ++ stream.to_client.map Prod.fst, owner = o.number)
      (owners : stream.owners.length = stream.decoder.buffer.length)
      (pending : stream.pending = [])

/-- A call that waits is at one point of its exchange. -/
structure Waits (codec : WireCodec) (client : HostClient) (o : Ongoing) : Prop where
  phase : ∃ stream, client.stream = some stream ∧ Phase codec o stream
  request : ∃ envelope, read_frame codec.crc32c o.frame = .ok (some (envelope, [])) ∧
    decide (envelope.kind = .AttachRequest) = o.call.attaches
  own : ∀ owner ∈ o.took, owner = o.number
  handshake : o.call.establishes = true → client.state ≠ .Ready

/-- A client between two calls, if it is ready, has nothing left on its connection. -/
def Rests (client : HostClient) : Prop :=
  client.state = .Ready → ∃ stream, client.stream = some stream ∧ stream.Clean ∧ stream.owners = []

structure Sound (codec : WireCodec) (w : World) : Prop where
  own : ∀ call ∈ w.finished, ∀ owner ∈ call.took, owner = call.number
  rests : w.ongoing = none → Rests w.client
  waits : ∀ o, w.ongoing = some o → Waits codec w.client o

theorem Sound.in_step (h : Sound codec w) : w.InStep where
  own := h.own
  clean hnone hready := by
    obtain ⟨stream, hstream, hclean, -⟩ := h.rests hnone hready
    exact ⟨stream, hstream, hclean⟩

theorem sound_start (options : ConnectOptions) : Sound codec (.start options) where
  own := by simp [World.start]
  rests := by
    intro _ hready
    cases hready
  waits := by simp [World.start]

section
variable (hown : ∀ call ∈ w.finished, ∀ owner ∈ call.took, owner = call.number)
include hown

theorem Sound.finish (hrests : Rests w.client) {number : Nat} {took : List Nat}
    (htook : ∀ owner ∈ took, owner = number) (result : Option (Except ClientErrorCode Answer)) :
    Sound codec (w.finish number took result) where
  own := by
    intro call hcall
    rcases List.mem_append.mp hcall with hcall | hcall
    · exact hown call hcall
    · rw [List.mem_singleton.mp hcall]
      exact htook
  rests _ := hrests
  waits o ho := by cases ho

theorem Sound.fail {call : Call} (hrests : call.establishes = false → Rests w.client) {number : Nat}
    {took : List Nat} (htook : ∀ owner ∈ took, owner = number) (code : ClientErrorCode) :
    Sound codec (w.fail number call took code) := by
  unfold World.fail
  cases hcall : call.establishes with
  | true =>
    refine Sound.finish ?_ (fun hready => ?_) htook _
    · exact hown
    · cases hready
  | false => exact .finish hown (hrests hcall) htook _

end

/-! ## One step -/

theorem Sound.settle (hown : ∀ call ∈ w.finished, ∀ owner ∈ call.took, owner = call.number)
    (hstream : w.client.stream = some stream) (hunsent : o.unsent = [])
    (hrequest : ∃ envelope, read_frame codec.crc32c o.frame = .ok (some (envelope, [])) ∧
      decide (envelope.kind = .AttachRequest) = o.call.attaches)
    (htook : ∀ owner ∈ o.took, owner = o.number)
    (hhandshake : o.call.establishes = true → w.client.state ≠ .Ready)
    (hto_host : stream.to_host = []) (hcoming : drain (read_frame codec.crc32c)
      (stream.decoder.buffer ++ stream.to_client.map Prod.snd) = (rest, .ok []))
    (hshape : answers_to codec o.call.attaches (stream.pending.map Prod.snd ++ rest) = true)
    (howner : ∀ owner ∈ stream.owners ++ stream.to_client.map Prod.fst, owner = o.number)
    (howners : stream.owners.length = stream.decoder.buffer.length)
    (hpending : ∀ p ∈ stream.pending, p.1 = o.number)
    (hheeds : heeds codec o.call o.request_id o.attaching w.client (stream.pending.map Prod.snd) = true) :
    Sound codec (w.settle codec o stream) := by
  unfold World.settle
  rcases hsettle : World.settleWith codec o w.client stream.pending with
    ⟨client, left, o', result⟩
  obtain ⟨hsame, rfl, hresult⟩ := settleWith_spec hpending hshape hheeds hsettle
  cases result with
  | none =>
    obtain ⟨hrest, hstate, hsame_stream⟩ := hresult
    refine ⟨hown, by simp, ?_⟩
    intro o'' ho''
    cases ho''
    refine ⟨⟨{ stream with pending := [] }, ?_, ?_⟩, ?_, hsame.own htook, ?_⟩
    · simp [World.withPending, hsame_stream, hstream]
    · refine .hears rest (hsame.unsent.trans hunsent) hto_host hcoming ?_ ?_ howners rfl
      · rw [hsame.call]
        exact hrest
      · rw [hsame.number]
        exact howner
    · rw [hsame.frame, hsame.call]
      exact hrequest
    · rw [hsame.call]
      intro hestablishes
      exact fun hready => hhandshake hestablishes (hstate.symm.trans hready)
  | some result =>
    obtain ⟨rfl, hkept⟩ := hresult
    refine Sound.finish ?_ (fun hready => ?_) (hsame.own htook) _
    · exact hown
    obtain ⟨frames, hbytes, -, hlen, -⟩ := drain_left (framed_read_frame codec.crc32c) _ hcoming
    have hframes : frames = [] := List.eq_nil_of_length_eq_zero hlen
    rw [hframes, List.flatten_nil, List.nil_append, List.append_eq_nil_iff, List.map_eq_nil_iff] at hbytes
    refine ⟨{ stream with pending := [] }, ?_, ⟨hto_host, hbytes.2, hbytes.1, rfl⟩, ?_⟩
    · simp [World.withPending, hkept hready, hstream]
    · apply List.eq_nil_of_length_eq_zero
      rw [howners, hbytes.1, List.length_nil]

theorem Waits.unsent_frame (h : Waits codec w.client o) (hstate : o.unsent = o.frame) :
    ∃ stream, w.client.stream = some stream ∧ stream.Clean ∧ stream.owners = [] := by
  obtain ⟨stream, hstream, hphase⟩ := h.phase
  obtain ⟨envelope, hread, -⟩ := h.request
  refine ⟨stream, hstream, ?_⟩
  cases hphase with
  | asks sent frame to_host to_client buffer owners pending =>
    have hsent : sent = [] := by
      have hlen := congrArg List.length frame
      rw [hstate, List.length_append] at hlen
      exact List.eq_nil_of_length_eq_zero (by omega)
    subst hsent
    exact ⟨⟨to_host, to_client, buffer, pending⟩, owners⟩
  | hears rest unsent =>
    rw [← hstate, unsent] at hread
    cases hread

theorem sound_stop (h : Sound codec w) (ho : w.ongoing = some o) (cause : Cause)
    (hquiet : o.call.establishes = true ∨ o.unsent = o.frame) : Sound codec (w.stop cause) := by
  have hwaits := h.waits o ho
  have hrests : o.call.establishes = false → Rests w.client := by
    intro hcall _
    rcases hquiet with hestablishes | hunsent
    · rw [hcall] at hestablishes
      cases hestablishes
    · exact hwaits.unsent_frame hunsent
  have hfail := fun code => @Sound.fail codec w h.own o.call hrests o.number o.took hwaits.own code
  unfold World.stop
  rw [ho]
  cases cause with
  | Cancelled => exact hfail .Cancelled
  | Io => exact hfail .Io
  | EndOfStream =>
    simp only
    split
    · exact hfail .EndOfStream
    · exact h
  | Dropped =>
    apply Sound.finish h.own _ hwaits.own
    intro hready
    cases hcall : o.call.establishes with
    | true => exact absurd hready (hwaits.handshake hcall)
    | false => exact hrests hcall hready

/-! ### Beginnings -/

@[simp] theorem require_ready_ok_iff {u : Unit} :
    client.require_ready = .ok u ↔ client.state = .Ready := by
  unfold HostClient.require_ready
  split <;> simp [*]

theorem ok_of_ite_error {ε α : Type} {p : Prop} [Decidable p] {e : ε} {x : Except ε α} {a : α}
    (h : (if p then .error e else x) = .ok a) : x = .ok a := by
  split at h
  · cases h
  · exact h

/-- A request is prepared for an open connection, and nothing has happened to it yet. -/
theorem prepare_ready {call : Call} {request : Request}
    (h : client.prepare call = .ok (request_id, request, client')) :
    client'.stream = client.stream ∧ client'.state = client.state ∧
      (call.establishes = false → client.state = .Ready) ∧
      decide (request.kind = .AttachRequest) = call.attaches := by
  cases call with
  | connect | reconnect =>
    cases h
    simp [Call.establishes, Call.attaches, Request.kind]
  | input =>
    simp only [HostClient.prepare, Checks.bind_ok_iff] at h
    obtain ⟨-, -, h⟩ := h
    have h := ok_of_ite_error h
    simp only [Checks.bind_ok_iff, require_ready_ok_iff] at h
    obtain ⟨-, hready, h⟩ := h
    cases h
    simp [hready, Call.attaches, Request.kind]
  | detach =>
    simp only [HostClient.prepare, Checks.bind_ok_iff, require_ready_ok_iff] at h
    obtain ⟨-, hready, h⟩ := h
    cases h
    simp [hready, Call.attaches, Request.kind]
  | get_state | attach | request_activity_snapshot | set_writer_lease =>
    simp only [HostClient.prepare, Checks.bind_ok_iff, require_ready_ok_iff] at h
    obtain ⟨-, hready, -, -, h⟩ := h
    cases h
    simp [hready, Call.attaches, Request.kind]
  | resize | stop | interrupt =>
    simp only [HostClient.prepare, Checks.bind_ok_iff, require_ready_ok_iff] at h
    obtain ⟨-, -, -, hready, h⟩ := h
    cases h
    simp [hready, Call.attaches, Request.kind]

theorem sound_send (hown : ∀ call ∈ w.finished, ∀ owner ∈ call.took, owner = call.number)
    {call : Call} (hclean : w.client.state = .Ready ∨ call.establishes = true →
      ∃ stream, w.client.stream = some stream ∧ stream.Clean ∧ stream.owners = [])
    (hhandshake : call.establishes = true → w.client.state ≠ .Ready) (number : Nat) :
    Sound codec (w.send codec number call) := by
  have hrests : Rests w.client := fun hready => hclean (.inl hready)
  unfold World.send
  cases hprepare : w.client.prepare call with
  | error code => exact .finish hown hrests (by simp) _
  | ok prepared =>
    obtain ⟨request_id, request, client⟩ := prepared
    obtain ⟨hstream, hstate, hready, hkind⟩ := prepare_ready hprepare
    have hfail : ∀ code, Sound codec (World.fail { w with client } number call [] code) := by
      intro code
      refine Sound.fail ?_ (fun _ hnow => ?_) (by simp) code
      · exact hown
      · rw [hstate] at hnow
        simpa only [hstream] using hrests hnow
    simp only
    split
    · exact hfail _
    · cases hencode : (client.envelope codec request_id request).encode codec.crc32c with
      | error e => exact hfail _
      | ok frame =>
        refine ⟨hown, by simp, ?_⟩
        intro o ho
        cases ho
        have hopen : w.client.state = .Ready ∨ call.establishes = true := by
          cases hcall : call.establishes with
          | true => exact .inr rfl
          | false => exact .inl (hready hcall)
        obtain ⟨stream, hsome, hclean, howners⟩ := hclean hopen
        refine ⟨⟨stream, hstream.trans hsome, ?_⟩, ⟨_, frame_of_encode hencode, hkind⟩, by simp, ?_⟩
        · exact .asks [] rfl hclean.to_host hclean.to_client hclean.buffer howners hclean.pending
        · rw [hstate]
          exact hhandshake

theorem sound_establish (hown : ∀ call ∈ w.finished, ∀ owner ∈ call.took, owner = call.number)
    {call : Call} (hcall : call.establishes = true) (hstate : w.client.state = .Disconnected)
    (number : Nat) (opening : Opening) : Sound codec (w.establish codec number call opening) := by
  unfold World.establish
  rw [if_neg (not_not.mpr hstate)]
  cases opening with
  | Opened =>
    refine sound_send ?_ (fun _ => ?_) (fun _ => ?_) number
    · exact hown
    · exact ⟨.new, rfl, ⟨rfl, rfl, rfl, rfl⟩, rfl⟩
    · simp
  | Failed code =>
    refine .fail hown (fun hnot => ?_) (by simp) code
    rw [hcall] at hnot
    cases hnot
  | Dropped =>
    refine Sound.finish ?_ (fun hready => ?_) (by simp) _
    · exact hown
    · cases hready

theorem sound_begin (h : Sound codec w) (call : Call) (opening : Opening) :
    Sound codec (w.begin codec call opening) := by
  unfold World.begin
  cases ho : w.ongoing with
  | some o => exact h
  | none =>
    have hsend : call.establishes = false →
        Sound codec (World.send { w with started := w.started + 1 } codec (w.started + 1) call) := by
      intro hcall
      refine sound_send ?_ ?_ ?_ _
      · exact h.own
      · rintro (hready | hestablishes)
        · exact h.rests ho hready
        · rw [hcall] at hestablishes
          cases hestablishes
      · rw [hcall]
        intro hestablishes
        cases hestablishes
    cases call with
    | connect =>
      refine sound_establish ?_ rfl rfl _ opening
      exact h.own
    | reconnect client_nonce =>
      refine sound_establish ?_ rfl rfl _ opening
      exact h.own
    | _ => exact hsend rfl

/-! ### Bytes -/

theorem sound_write (h : Sound codec w) (n : Nat) : Sound codec (w.write codec n) := by
  unfold World.write
  cases ho : w.ongoing with
  | none => exact h
  | some o =>
    have hwaits := h.waits o ho
    obtain ⟨stream, hstream, hphase⟩ := hwaits.phase
    obtain ⟨envelope, hread, hkind⟩ := hwaits.request
    rw [hstream]
    simp only
    split
    · exact h
    · rename_i hunsent
      cases hphase with
      | hears rest hdone => exact absurd hdone hunsent
      | asks sent frame to_host to_client buffer owners pending =>
        have hsent : stream.to_host ++ tagged o.number (o.unsent.take n) =
            tagged o.number (sent ++ o.unsent.take n) := by
          rw [to_host]
          simp [tagged]
        have hframe : o.frame = (sent ++ o.unsent.take n) ++ o.unsent.drop n := by
          rw [List.append_assoc, List.take_append_drop, frame]
        -- what is left when the socket has taken these bytes
        have hnext : ∀ client : HostClient, client.state = w.client.state →
            client.stream = some { stream with
              to_host := stream.to_host ++ tagged o.number (o.unsent.take n) } →
            Waits codec client { o with unsent := o.unsent.drop n } := by
          intro client hstate hclient
          refine ⟨⟨_, hclient, ?_⟩, ⟨envelope, hread, hkind⟩, hwaits.own, ?_⟩
          · exact .asks _ hframe hsent to_client buffer owners pending
          · rw [hstate]
            exact hwaits.handshake
        have hgoes : ∀ client : HostClient, client.state = w.client.state →
            client.stream = some { stream with
              to_host := stream.to_host ++ tagged o.number (o.unsent.take n) } →
            Sound codec { w with client, ongoing := some { o with unsent := o.unsent.drop n } } := by
          intro client hstate hclient
          refine ⟨h.own, by simp, ?_⟩
          intro o' ho'
          cases ho'
          exact hnext client hstate hclient
        have hsettles : ∀ client : HostClient, client.state = w.client.state →
            client.stream = some { stream with
              to_host := stream.to_host ++ tagged o.number (o.unsent.take n) } →
            Sound codec (World.settle { w with client } codec { o with unsent := o.unsent.drop n }
              { stream with to_host := stream.to_host ++ tagged o.number (o.unsent.take n) }) := by
          intro client hstate hclient
          simp only [World.settle, pending, World.settleWith]
          apply hgoes
          · exact hstate
          · simp [World.withPending, hclient, pending]
        split
        · unfold World.written
          split
          · refine Sound.finish ?_ (fun hready => ?_) hwaits.own _
            · exact h.own
            · cases hready
          · exact hsettles _ rfl rfl
          · exact hsettles _ rfl rfl
        · exact hgoes _ rfl rfl

theorem push_limit (stream : AsyncEnvelopeStream)
    (h : MAX_FRAME_BYTES < stream.decoder.buffer.length + (chunk.map Prod.snd).length) :
    stream.push crc32c chunk = (.error .BufferLimit, stream) := by
  unfold AsyncEnvelopeStream.push FrameDecoder.push
  rw [if_pos h]

theorem push_drained (stream : AsyncEnvelopeStream) {rest : List UInt8}
    (hfit : stream.decoder.buffer.length + (chunk.map Prod.snd).length ≤ MAX_FRAME_BYTES)
    (hd : drain (read_frame crc32c) (stream.decoder.buffer ++ chunk.map Prod.snd) =
      (envelopes, .ok rest)) : stream.push crc32c chunk = (.ok (), { stream with
      decoder := ⟨rest⟩
      owners := (stream.owners ++ chunk.map Prod.fst).drop
        ((stream.owners ++ chunk.map Prod.fst).length - rest.length)
      pending := stream.pending ++ owned (stream.owners ++ chunk.map Prod.fst) envelopes }) := by
  unfold AsyncEnvelopeStream.push
  simp only [push_of_drain hfit hd]

theorem sound_read (h : Sound codec w) (n : Nat) (hfit : undisturbed codec w (.read n) = true) :
    Sound codec (w.read codec n) := by
  unfold World.read
  cases ho : w.ongoing with
  | none => exact h
  | some o =>
    have hwaits := h.waits o ho
    obtain ⟨stream, hstream, hphase⟩ := hwaits.phase
    rw [hstream]
    simp only
    split
    · exact h
    · rename_i hread
      obtain ⟨-, hchunk⟩ := not_or.mp hread
      cases hphase with
      | asks sent frame to_host to_client =>
        unfold World.chunk at hchunk
        rw [to_client, List.take_nil] at hchunk
        exact absurd rfl hchunk
      | hears rest unsent to_host coming shape owner owners pending =>
        have hcut : World.chunk stream n ++ stream.to_client.drop (min n READ_CHUNK_BYTES) =
            stream.to_client := List.take_append_drop _ _
        rw [← hcut] at owner coming
        simp only [List.map_append] at owner coming
        have hfits := hfit
        unfold undisturbed World.heard at hfits
        rw [ho, hstream] at hfits
        simp at hfits
        unfold World.heard
        generalize stream.to_client.drop (min n READ_CHUNK_BYTES) = later at hcut owner coming hfits ⊢
        rcases Nat.lt_or_ge MAX_FRAME_BYTES
          (stream.decoder.buffer.length + ((World.chunk stream n).map Prod.snd).length) with hbig | hroom
        · rw [push_limit { stream with to_client := later } hbig]
          have hcall : o.call.establishes = true := by
            rcases hfits with hcall | ⟨hroom, -⟩
            · exact hcall
            · rw [List.length_map] at hbig
              omega
          refine Sound.fail ?_ (fun hnot => ?_) hwaits.own _
          · exact h.own
          · rw [hcall] at hnot
            cases hnot
        · rw [← List.append_assoc, drain_append (framed_read_frame codec.crc32c).toIncremental] at coming
          rcases hd : drain (read_frame codec.crc32c)
            (stream.decoder.buffer ++ (World.chunk stream n).map Prod.snd) with ⟨envelopes, e | left⟩
          · rw [hd] at coming
            cases coming
          · rw [hd] at coming
            simp [more] at coming
            obtain ⟨rfl, hlater⟩ := coming
            have hlen : (stream.owners ++ (World.chunk stream n).map Prod.fst).length =
                (stream.decoder.buffer ++ (World.chunk stream n).map Prod.snd).length := by
              simp [owners]
            have hown : ∀ owner ∈ stream.owners ++ (World.chunk stream n).map Prod.fst,
                owner = o.number := by
              intro x hx
              apply owner
              rw [← List.append_assoc]
              exact List.mem_append_left _ hx
            obtain ⟨howned, hmap⟩ := owned_of_drain _ hlen hown hd
            obtain ⟨frames, hbytes, -⟩ := drain_left (framed_read_frame codec.crc32c) _ hd
            have hpush := push_drained { stream with to_client := later } hroom hd
            rw [hpush]
            refine Sound.settle ?_ rfl unsent hwaits.request hwaits.own hwaits.handshake to_host
              (Prod.ext rfl hlater) ?_ ?_ ?_ ?_ ?_
            · exact h.own
            · rw [pending, List.nil_append, hmap]
              exact shape
            · intro x hx
              rcases List.mem_append.mp hx with hx | hx
              · exact hown x (List.mem_of_mem_drop hx)
              · exact owner x (by simp [hx])
            · have hleft := congrArg List.length hbytes
              simp at hleft hlen ⊢
              omega
            · rw [pending]
              exact howned
            · rcases hfits with hcall | ⟨-, hheeds⟩
              · apply heeds_of_not_attaches
                exact not_attaches hcall
              · rw [hpush] at hheeds
                simpa only [pending, List.nil_append, hmap] using hheeds

theorem read_sent {sent : List UInt8}
    (hread : read_frame codec.crc32c o.frame = .ok (some (envelope, [])))
    (hframe : o.frame = sent ++ o.unsent) :
    (o.unsent = [] ∧ sent = o.frame) ∨ read_frame codec.crc32c sent = .ok none := by
  by_cases hunsent : o.unsent = []
  · rw [hunsent, List.append_nil] at hframe
    exact .inl ⟨hunsent, hframe.symm⟩
  · exact .inr (waits_of_part (framed_read_frame codec.crc32c).toIncremental ⟨envelope, hread⟩ hframe
      hunsent)

theorem tagged_snd (number : Nat) (bytes : List UInt8) : (tagged number bytes).map Prod.snd = bytes := by
  simp [tagged]

theorem tagged_fst {number : Nat} {bytes : List UInt8} {owner : Nat}
    (h : owner ∈ (tagged number bytes).map Prod.fst) : owner = number := by
  simp [tagged] at h
  obtain ⟨-, -, rfl⟩ := h
  rfl

theorem sound_answer (h : Sound codec w) (answers : List WireEnvelope)
    (hhonest : honest codec w (.answer answers) = true) : Sound codec (w.answer codec answers) := by
  unfold World.answer
  cases hstream : w.client.stream with
  | none => exact h
  | some stream =>
    simp only
    split
    · rename_i request rest frames hread hencode
      refine ⟨h.own, fun ho hready => ?_, fun o ho => ?_⟩
      · obtain ⟨s, hs, hclean, -⟩ := h.rests ho hready
        cases hstream.symm.trans hs
        rw [hclean.to_host] at hread
        cases hread
      · have hwaits := h.waits o ho
        obtain ⟨s, hs, hphase⟩ := hwaits.phase
        obtain ⟨envelope, hframe, hkind⟩ := hwaits.request
        cases hstream.symm.trans hs
        refine ⟨⟨_, rfl, ?_⟩, ⟨envelope, hframe, hkind⟩, hwaits.own, hwaits.handshake⟩
        cases hphase with
        | hears left unsent to_host =>
          rw [to_host] at hread
          cases hread
        | asks sent frame to_host to_client buffer owners pending =>
          rw [to_host, tagged_snd] at hread
          rcases read_sent hframe frame with ⟨hunsent, rfl⟩ | hwait
          · rw [hframe] at hread
            cases hread
            have hshape : answers_to codec o.call.attaches answers = true := by
              simpa only [honest, hstream, to_host, tagged_snd, hframe, hkind] using hhonest
            have hnumber : ((tagged o.number o.frame).map Prod.fst).headD 0 = o.number := by
              cases hbytes : o.frame with
              | nil =>
                rw [hbytes] at hframe
                cases hframe
              | cons b bytes => simp [tagged]
            refine .hears answers hunsent ?_ ?_ hshape ?_ ?_ pending
            · simp
            · simp [buffer, to_client, tagged_snd]
              exact (read_frames hencode).2
            · simp only [owners, to_client, List.nil_append, to_host, hnumber]
              exact fun owner howner => tagged_fst howner
            · simp [owners, buffer]
          · rw [hwait] at hread
            cases hread
    · exact h

/-! ## Runs -/

theorem sound_step (h : Sound codec w) (e : Event) (hhonest : honest codec w e = true)
    (hquiet : undisturbed codec w e = true) : Sound codec (w.step codec e) := by
  cases e with
  | begin call opening => exact sound_begin h call opening
  | write n => exact sound_write h n
  | read n => exact sound_read h n hquiet
  | answer answers => exact sound_answer h answers hhonest
  | disconnect =>
    unfold World.step
    cases ho : w.ongoing with
    | some o => simpa only [ho] using h
    | none =>
      refine ⟨h.own, fun _ hready => ?_, ?_⟩
      · cases hready
      · simp
  | stop cause =>
    unfold World.step
    cases ho : w.ongoing with
    | none => simpa only [World.stop, ho] using h
    | some o =>
      apply sound_stop h ho
      obtain ⟨stream, hstream, -⟩ := (h.waits o ho).phase
      unfold undisturbed at hquiet
      simpa only [ho, hstream, Bool.or_eq_true, decide_eq_true_eq] using hquiet

end

/-- A client whose calls are not cut off is in step with a Host that answers. -/
theorem a_ready_client_is_in_step (codec : WireCodec) (options : ConnectOptions)
    (events : List Event)
    (hsteps : Runs.steps (World.step codec) (fun w e => honest codec w e && undisturbed codec w e)
      (.start options) events = true) :
    (Runs.run (World.step codec) (.start options) events).InStep := by
  apply @Sound.in_step codec
  apply Runs.keeps (Sound codec) _ (sound_start options) hsteps
  intro w e h hwelcome
  rw [Bool.and_eq_true] at hwelcome
  exact sound_step h e hwelcome.1 hwelcome.2

/-! ## A session -/

/-- A field of the wire format that holds bytes, no more than 127 of them. -/
def field (tag : UInt8) (bytes : List UInt8) : List UInt8 := tag :: UInt8.ofNat bytes.length :: bytes

/-- `local_limits` on the wire. -/
def limitFields : List UInt8 :=
  [0x08, 0x80, 0x80, 0x40, 0x10, 0x80, 0x80, 0x04, 0x18, 0x80, 0x08, 0x20, 0x80, 0x08, 0x28, 0xd8,
    0x04]

theorem uuidOf_length (b : UInt8) : (List.replicate 16 b).length = 16 := List.length_replicate

def uuidOf (b : UInt8) : Uuid := ⟨List.replicate 16 b, uuidOf_length b⟩

def nonce (b : UInt8) : List UInt8 := List.replicate 32 b

def encodeRequest : Request → List UInt8
  | .HandshakeRequest session_id _ _ _ client_nonce _ =>
    field 0x0a <| field 0x0a session_id.val ++ field 0x12 [0x0a, 2, 8, 1, 0x12, 2, 8, 1] ++
      field 0x1a [1, 2, 3, 4, 5, 6, 7, 8] ++ field 0x22 limitFields ++ field 0x2a client_nonce ++
      [0x30, 1]
  | .InputRequest session_id command_id bytes =>
    field 0x4a <| field 0x0a session_id.val ++ field 0x12 command_id.val ++ field 0x1a bytes
  | _ => []

def welcome : HandshakeResponse :=
  ⟨(uuidOf 2).val, (uuidOf 1).val, some (1, 0), [1, 2, 3, 4, 5, 6, 7, 8],
    some local_limits, nonce 4, nonce 3⟩

def welcomePayload : List UInt8 :=
  let fields := field 0x0a (uuidOf 2).val ++ field 0x12 (uuidOf 1).val ++ field 0x1a [8, 1] ++
    field 0x22 [1, 2, 3, 4, 5, 6, 7, 8] ++ field 0x2a limitFields ++ field 0x32 (nonce 4) ++
    field 0x3a (nonce 3)
  [0x12, 0x89, 0x01] ++ fields

def appliedPayload : List UInt8 := field 0x7a <| field 0x0a (uuidOf 5).val ++ [0x10, 1]

def codecOfSession : WireCodec where
  encode_payload := encodeRequest
  decode payload :=
    if payload = welcomePayload then some (some (.HandshakeResponse welcome))
    else if payload = appliedPayload then some (some (.CommandResult (uuidOf 5).val true))
    else none
  crc32c := castagnoli

/-- The first id of a request, which the handshake carries. -/
def firstRequest : Uuid := ⟨List.replicate 15 0 ++ [1], by simp⟩

def welcomed : List WireEnvelope := [⟨1, 0, .HandshakeResponse, 0, firstRequest, welcomePayload⟩]

def applied : List WireEnvelope := [⟨1, 0, .CommandResult, 0, uuidOf 5, appliedPayload⟩]

def typed : Call := .input (uuidOf 5) [0x61]

def connecting : List Event :=
  [.begin .connect .Opened, .write 100, .write 100, .answer welcomed, .read 100, .read 8192]

set_option maxRecDepth 10000 in
/-- Input that comes in two pieces and is answered. -/
theorem a_client_that_types_is_in_step :
    (Runs.run (World.step codecOfSession) (.start (.localOf (uuidOf 1) (nonce 3)))
      (connecting ++ [.begin typed .Opened, .write 30, .write 100, .answer applied,
          .read 40, .read 40])).InStep :=
  a_ready_client_is_in_step codecOfSession (.localOf (uuidOf 1) (nonce 3)) _ (by decide +kernel)

/-- The input is cancelled before its answer comes, and the next input gets that answer. -/
def cancelled : List Event :=
  connecting ++ [.begin typed .Opened, .write 200, .stop .Cancelled, .answer applied,
    .begin typed .Opened, .write 200, .read 8192]

set_option maxRecDepth 10000 in
theorem a_cancelled_call_answers_the_next :
    ¬ ∀ (codec : WireCodec) (options : ConnectOptions) (events : List Event),
      Runs.steps (World.step codec) (honest codec) (.start options) events = true →
      (Runs.run (World.step codec) (.start options) events).InStep := by
  intro h
  have hrun := h codecOfSession (.localOf (uuidOf 1) (nonce 3)) cancelled (by decide +kernel)
  have hown : ((Runs.run (World.step codecOfSession) (.start (.localOf (uuidOf 1) (nonce 3)))
      cancelled).finished.all fun call => call.took.all fun owner => owner = call.number) = true := by
    rw [List.all_eq_true]
    intro call hcall
    rw [List.all_eq_true]
    intro owner howner
    simpa using hrun.own call hcall owner howner
  revert hown
  decide +kernel

end multiplex_client.exchange
