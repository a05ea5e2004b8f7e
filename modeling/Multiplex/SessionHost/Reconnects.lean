-- A Host and a client that comes back. The client asks from what it accepted last,
-- while the Host goes on with its output at any time.
import Multiplex.SessionHost.Quota

open multiplex_host_protocol multiplex_store.journal multiplex_client

namespace multiplex_session_host

/-- The Host, every output that it processed, and what the client accepted last. -/
structure World (σ : Type) where
  host : RuntimeState σ
  outputs : List Output
  position : Nat

/-- The Host processes an output, or the client attaches while some outputs are processed. -/
inductive Event where
  | output (o : Output)
  | attach (meanwhile : List Output) (has_writer : Bool)

def Event.outputs : Event → List Output
  | .output o => [o]
  | .attach meanwhile _ => meanwhile

/-- The last output that was accepted, or the boundary of the snapshot. -/
def positionAfter (attached : Attached) (position : Nat) : Nat :=
  match attached.outputs.getLast? with
  | some o => o.sequence
  | none => (attached.last_snapshot.map ViewportSnapshotEvent.boundary_sequence).getD position

section
variable {σ : Type} (vt : Vt100 σ) (crc32c : List UInt8 → UInt32) (windows : Bool)
  (client : HostClient)

/-- The replay is read first. The state goes out when the other outputs were processed. -/
def World.served (w : World σ) (meanwhile : List Output) (has_writer : Bool) : Served :=
  w.host.serve_attach vt crc32c (w.host.process_all vt crc32c windows meanwhile) has_writer
    (attachRequest w.position)

def World.step (w : World σ) (event : Event) : World σ where
  host := w.host.process_all vt crc32c windows event.outputs
  outputs := w.outputs ++ event.outputs
  position :=
    match event with
    | .output _ => w.position
    | .attach meanwhile has_writer =>
      match client.attach crc32c w.position (w.served vt crc32c windows meanwhile has_writer).sent with
      | .ok attached => positionAfter attached w.position
      | .error _ => w.position

def World.run (w : World σ) (events : List Event) : World σ :=
  events.foldl (World.step vt crc32c windows client) w

variable {vt crc32c windows client} {limits : JournalLimits} {first : σ}

/-! ## What a run keeps -/

theorem process_all_append (host : RuntimeState σ) (a b : List Output) :
    host.process_all vt crc32c windows (a ++ b) =
      (host.process_all vt crc32c windows a).process_all vt crc32c windows b := List.foldl_append

variable (vt crc32c windows) in
theorem process_all_ids (outputs : List Output) : ∀ host : RuntimeState σ,
    (host.process_all vt crc32c windows outputs).session_id = host.session_id ∧
      (host.process_all vt crc32c windows outputs).host_instance_id = host.host_instance_id := by
  induction outputs with
  | nil => exact fun _ => ⟨rfl, rfl⟩
  | cons o outputs ih =>
    intro host
    obtain ⟨hsession, hinstance⟩ :=
      ih (host.process_output vt crc32c windows o.bytes o.monotonic_nanos).1
    have hsame : (host.process_output vt crc32c windows o.bytes o.monotonic_nanos).1.session_id =
          host.session_id ∧
        (host.process_output vt crc32c windows o.bytes o.monotonic_nanos).1.host_instance_id =
          host.host_instance_id := by
      unfold RuntimeState.process_output
      simp only
      split
      · exact ⟨rfl, rfl⟩
      split
      · exact ⟨rfl, rfl⟩
      split
      · exact ⟨rfl, rfl⟩
      · exact ⟨rfl, rfl⟩
      · split
        · exact ⟨rfl, rfl⟩
        · exact ⟨rfl, rfl⟩
    exact ⟨hsession.trans hsame.1, hinstance.trans hsame.2⟩

theorem positionAfter_le {outputs : List Output} {p : Nat} (hp : p ≤ outputs.length)
    {attached : Attached} (h : Continues vt windows first outputs p attached) :
    positionAfter attached p ≤ outputs.length := by
  have hlast : ∀ k o, ((sequenced windows outputs).drop k).getLast? = some o →
      o.sequence ≤ outputs.length := by
    intro k o ho
    have hmem := List.mem_of_mem_drop (List.mem_of_getLast? ho)
    obtain ⟨i, hi, rfl⟩ := List.mem_mapIdx.mp hmem
    exact hi
  unfold positionAfter
  unfold Continues at h
  cases hsnapshot : attached.last_snapshot with
  | none =>
    rw [hsnapshot] at h
    split
    · rename_i o ho
      rw [h] at ho
      exact hlast p o ho
    · exact hp
  | some s =>
    rw [hsnapshot] at h
    obtain ⟨-, hle, -, -, houtputs⟩ := h
    split
    · rename_i o ho
      rw [houtputs] at ho
      exact hlast _ o ho
    · exact hle

variable (vt crc32c windows limits first client) in
/-- Every output was recorded, and the client is somewhere among them. -/
structure Going (w : World σ) : Prop where
  recording : ∃ l, Recording vt crc32c windows limits first w.host w.outputs l
  sizes : ∀ o ∈ w.outputs, o.bytes.length ≤ MAX_OUTPUT_BYTES
  position : w.position ≤ w.outputs.length
  session : client.session_id = w.host.session_id
  session_size : w.host.session_id.length = 16
  instance_size : w.host.host_instance_id.length = 16

theorem Going.pair {w : World σ} (h : Going vt crc32c windows client limits first w)
    (hlimit : MAX_OUTPUT_BYTES ≤ client.maximum_output_bytes) (meanwhile : List Output) :
    Pair w.host (w.host.process_all vt crc32c windows meanwhile) client := by
  obtain ⟨hsame, hinstance⟩ := process_all_ids vt crc32c windows meanwhile w.host
  exact ⟨h.session, hsame, h.session_size, by rw [hinstance]; exact h.instance_size, hlimit⟩

theorem going_step (hlimit : MAX_OUTPUT_BYTES ≤ client.maximum_output_bytes) {w : World σ}
    (h : Going vt crc32c windows client limits first w) {event : Event}
    (hsizes : ∀ o ∈ event.outputs, o.bytes.length ≤ MAX_OUTPUT_BYTES)
    (hpaused : (w.step vt crc32c windows client event).host.recording_paused = false)
    (hsix : (w.step vt crc32c windows client event).host.journal.active_index ≤ 999999) :
    Going vt crc32c windows client limits first (w.step vt crc32c windows client event) := by
  obtain ⟨l, hrecording⟩ := h.recording
  obtain ⟨l', hlater⟩ := recording_process_all hrecording hsizes hpaused hsix
  obtain ⟨hsame, hinstance⟩ := process_all_ids vt crc32c windows event.outputs w.host
  refine ⟨⟨l', hlater⟩, ?_, ?_, h.session.trans hsame.symm, ?_, ?_⟩
  · intro o ho
    rcases List.mem_append.mp ho with ho | ho
    · exact h.sizes o ho
    · exact hsizes o ho
  · have hlonger : w.outputs.length ≤ (w.outputs ++ event.outputs).length := by
      rw [List.length_append]
      exact Nat.le_add_right _ _
    cases event with
    | output o => exact h.position.trans hlonger
    | attach meanwhile has_writer =>
      refine le_trans ?_ hlonger
      change Recording vt crc32c windows limits first
        (w.host.process_all vt crc32c windows meanwhile) (w.outputs ++ meanwhile) l' at hlater
      unfold World.step World.served
      simp only
      rcases attach_cases hrecording hlater (h.pair hlimit meanwhile) h.sizes has_writer h.position with
        ⟨-, -, attached, hattached, hcontinues⟩ | ⟨-, -, hfailed⟩
      · rw [hattached]
        exact positionAfter_le h.position hcontinues
      · rw [hfailed]
        exact h.position
  · rw [show (w.step vt crc32c windows client event).host.session_id = w.host.session_id from hsame]
    exact h.session_size
  · rw [show (w.step vt crc32c windows client event).host.host_instance_id =
      w.host.host_instance_id from hinstance]
    exact h.instance_size

variable (vt crc32c windows client) in
theorem run_host (events : List Event) : ∀ w : World σ,
    (w.run vt crc32c windows client events).host =
      w.host.process_all vt crc32c windows (events.flatMap Event.outputs) := by
  induction events with
  | nil => exact fun _ => rfl
  | cons event events ih =>
    intro w
    rw [List.flatMap_cons, process_all_append]
    exact ih (w.step vt crc32c windows client event)

theorem going_run (hlimit : MAX_OUTPUT_BYTES ≤ client.maximum_output_bytes) {events : List Event} :
    ∀ {w : World σ}, Going vt crc32c windows client limits first w →
    (∀ o ∈ events.flatMap Event.outputs, o.bytes.length ≤ MAX_OUTPUT_BYTES) →
    (w.run vt crc32c windows client events).host.recording_paused = false →
    (w.run vt crc32c windows client events).host.journal.active_index ≤ 999999 →
    Going vt crc32c windows client limits first (w.run vt crc32c windows client events) := by
  induction events with
  | nil => exact fun h _ _ _ => h
  | cons event events ih =>
    intro w h hsizes hpaused hsix
    have hrest := run_host vt crc32c windows client events
      (w.step vt crc32c windows client event)
    have hflag : (w.step vt crc32c windows client event).host.recording_paused = false := by
      by_contra hne
      rw [Bool.not_eq_false] at hne
      have hlast := paused_process_all vt crc32c windows (events.flatMap Event.outputs) hne
      rw [← hrest] at hlast
      exact absurd (hlast.symm.trans hpaused) (by decide)
    have hactive : (w.step vt crc32c windows client event).host.journal.active_index ≤ 999999 := by
      refine (le_active_process_all vt crc32c windows (events.flatMap Event.outputs) _).trans ?_
      rw [← hrest]
      exact hsix
    exact ih (going_step hlimit h (fun o ho => hsizes o (List.mem_append_left _ ho)) hflag hactive)
      (fun o ho => hsizes o (List.mem_append_right _ ho)) hpaused hsix

/-- A client that comes back to a Host that records goes on exactly where it stopped, unless the
snapshot that it needs is too large for one frame of the wire. -/
theorem attach_continues_iff_the_snapshot_fits (hvalid : limits.validate = .ok limits)
    {session_id host_instance_id : List UInt8} (hsession : session_id.length = 16)
    (hinstance : host_instance_id.length = 16) {host : RuntimeState σ}
    (hlaunch : launch crc32c limits session_id host_instance_id Disk.empty first = .ok host)
    (hclient : client.session_id = session_id)
    (hlimit : MAX_OUTPUT_BYTES ≤ client.maximum_output_bytes) {events : List Event} {w : World σ}
    (hrun : World.run vt crc32c windows client ⟨host, [], 0⟩ events = w) {meanwhile : List Output}
    (hsizes : ∀ o ∈ events.flatMap Event.outputs ++ meanwhile, o.bytes.length ≤ MAX_OUTPUT_BYTES)
    (hpaused : (w.host.process_all vt crc32c windows meanwhile).recording_paused = false)
    (hsix : (w.host.process_all vt crc32c windows meanwhile).journal.active_index ≤ 999999)
    (has_writer : Bool) : ((w.served vt crc32c windows meanwhile has_writer).result = .ok () ∧
      ∃ attached, client.attach crc32c w.position
          (w.served vt crc32c windows meanwhile has_writer).sent = .ok attached ∧
        Continues vt windows first w.outputs w.position attached) ↔
    AttachFits vt windows first w.host w.outputs w.position := by
  obtain ⟨hstart, -, -, hid, hhost⟩ :=
    recording_launch vt windows hvalid session_id host_instance_id hlaunch
  have hnew : Going vt crc32c windows client limits first ⟨host, [], 0⟩ :=
    ⟨⟨_, hstart⟩, fun o ho => absurd ho List.not_mem_nil, le_rfl, hclient.trans hid.symm,
      by rw [hid]; exact hsession, by rw [hhost]; exact hinstance⟩
  -- the whole run, with the attach as its last event
  have hrecords : w.host.recording_paused = false := by
    by_contra hne
    rw [Bool.not_eq_false] at hne
    rw [paused_process_all vt crc32c windows meanwhile hne] at hpaused
    cases hpaused
  have hactive := (le_active_process_all vt crc32c windows meanwhile w.host).trans hsix
  have hgoing : Going vt crc32c windows client limits first w := by
    rw [← hrun] at hrecords hactive ⊢
    exact going_run hlimit hnew (fun o ho => hsizes o (List.mem_append_left _ ho)) hrecords hactive
  obtain ⟨l, hrecording⟩ := hgoing.recording
  obtain ⟨l', hlater⟩ := recording_process_all hrecording
    (fun o ho => hsizes o (List.mem_append_right _ ho)) hpaused hsix
  rcases attach_cases hrecording hlater (hgoing.pair hlimit meanwhile) hgoing.sizes has_writer
      hgoing.position with ⟨hfits, hserved⟩ | ⟨hnot, hfailed, -⟩
  · exact ⟨fun _ => hfits, fun _ => hserved⟩
  · refine ⟨fun hserved => ?_, fun hfits => absurd hfits hnot⟩
    have hok := hserved.1
    unfold World.served at hok
    rw [hfailed] at hok
    cases hok

/-! ## Runs without an attach -/

variable (vt crc32c windows client) in
theorem run_outputs (outputs : List Output) : ∀ w : World σ,
    w.run vt crc32c windows client (outputs.map Event.output) =
      ⟨w.host.process_all vt crc32c windows outputs, w.outputs ++ outputs, w.position⟩ := by
  induction outputs with
  | nil =>
    intro w
    rw [List.append_nil]
    rfl
  | cons o outputs ih =>
    intro w
    refine (ih (w.step vt crc32c windows client (.output o))).trans ?_
    unfold World.step
    simp only [Event.outputs, List.append_assoc, List.singleton_append]
    rfl

theorem process_all_of_loop {outputs : List Output} : ∀ {host final : RuntimeState σ},
    host.output_loop vt crc32c windows outputs = (final, .ok ()) →
    host.process_all vt crc32c windows outputs = final := by
  induction outputs with
  | nil =>
    rintro host _ ⟨rfl⟩
    rfl
  | cons o outputs ih =>
    intro host final h
    unfold RuntimeState.output_loop at h
    split at h
    · cases h
    · rename_i host' heq
      unfold RuntimeState.process_all
      rw [List.foldl_cons, heq]
      exact ih h

end

/-! ## A screen that is too large -/

/-- The client of the session, with the limits that it asks for. -/
def lettersClient : HostClient := ⟨List.replicate 16 1, MAX_OUTPUT_BYTES⟩

theorem letters_run {n : Nat} (hshort : n * MAX_OUTPUT_FRAME_BYTES < 67108864) :
    ∃ host final, launch castagnoli .default (List.replicate 16 1) (List.replicate 16 2)
        Disk.empty [] = .ok host ∧
      World.run lettersOnly castagnoli false lettersClient ⟨host, [], 0⟩
        ((List.replicate n lettersOutput).map Event.output) =
          ⟨final, List.replicate n lettersOutput, 0⟩ ∧
      Recording lettersOnly castagnoli false .default [] final (List.replicate n lettersOutput)
        ⟨[], 1, framesOf false (List.replicate n lettersOutput)⟩ ∧
      final.recording_paused = false ∧ final.session_id = List.replicate 16 1 ∧
      final.host_instance_id = List.replicate 16 2 := by
  have hvalid : JournalLimits.default.validate = .ok .default := rfl
  obtain ⟨host, hlaunch⟩ := launch_fresh castagnoli hvalid (List.replicate 16 1)
    (List.replicate 16 2) ([] : List UInt8)
  obtain ⟨hstart, hflag, hstore, hsession, hinstance⟩ :=
    recording_launch lettersOnly false hvalid _ _ hlaunch
  obtain ⟨final, hloop, hrecording, hpaused, -⟩ := short_run hvalid hstart hflag hstore
    (letters_le (n := n)) (by rw [List.length_replicate]; exact hshort)
  have hall := process_all_of_loop hloop
  obtain ⟨hsame, hhost⟩ := process_all_ids lettersOnly castagnoli false
    (List.replicate n lettersOutput) host
  rw [hall] at hsame hhost
  refine ⟨host, final, hlaunch, ?_, hrecording, hpaused, hsame.trans hsession, hhost.trans hinstance⟩
  rw [run_outputs, hall, List.nil_append]

theorem payload_letters (n : Nat) :
    payloadBytes (framesOf false (List.replicate n lettersOutput)) = n * 65536 := by
  induction n with
  | zero => rfl
  | succ n ih =>
    have hone : (frameOf false (List.replicate n lettersOutput).length lettersOutput).payload.length =
        65536 := by
      unfold frameOf
      rw [recorded_unix, length_lettersOutput]
    unfold payloadBytes at ih ⊢
    rw [List.replicate_succ', framesOf_append, List.map_append, List.sum_append, ih, List.map_singleton,
      List.sum_singleton, hone, Nat.succ_mul]

theorem base_letters {n : Nat} (hn : n ≠ 0) {final : RuntimeState (List UInt8)}
    (h : Recording lettersOnly castagnoli false .default [] final (List.replicate n lettersOutput)
      ⟨[], 1, framesOf false (List.replicate n lettersOutput)⟩) : final.journal.base_sequence = 0 := by
  have hframes := congrArg List.length h.alive.frames
  unfold Layout.frames at hframes
  rw [List.length_drop] at hframes
  simp only [List.flatMap_nil, List.nil_append, length_framesOf, List.length_replicate] at hframes
  omega

theorem attach_continues_after_one_output :
    ∃ host final, launch castagnoli .default (List.replicate 16 1) (List.replicate 16 2)
        Disk.empty [] = .ok host ∧
      World.run lettersOnly castagnoli false lettersClient ⟨host, [], 0⟩
        ((List.replicate 1 lettersOutput).map Event.output) =
          ⟨final, List.replicate 1 lettersOutput, 0⟩ ∧
      (World.served lettersOnly castagnoli false ⟨final, List.replicate 1 lettersOutput, 0⟩ []
        true).result = .ok () := by
  obtain ⟨host, final, hlaunch, hrun, hrecording, hpaused, -, -⟩ := letters_run (n := 1) (by decide)
  have hactive : final.journal.active_index = 1 := hrecording.alive.mirrors.index
  have hbase := base_letters (by decide) hrecording
  have hfits : AttachFits lettersOnly false [] final (List.replicate 1 lettersOutput) 0 := by
    unfold AttachFits ReplayExceeds
    rw [hbase, max_self, List.drop_zero, List.drop_zero, payload_letters]
    exact ⟨fun hexceeds => absurd hexceeds (by decide), fun _ hbelow => absurd hbelow (by decide)⟩
  refine ⟨host, final, hlaunch, hrun, ?_⟩
  exact ((attach_continues_iff_the_snapshot_fits rfl rfl rfl hlaunch rfl le_rfl hrun
    (letters_le (n := 1)) hpaused (hactive.le.trans (by decide)) true).mpr hfits).1

theorem length_screen_letters (n : Nat) :
    (screenAfter lettersOnly [] (List.replicate n lettersOutput)).length = n * 65536 := by
  induction n with
  | zero => rfl
  | succ n ih =>
    rw [List.replicate_succ', screenAfter_append]
    unfold lettersOnly at ih ⊢
    rw [List.length_append, ih, length_lettersOutput, Nat.succ_mul]

theorem large_letters : MAX_PAYLOAD_BYTES < (snapshotAfter lettersOnly []
    (List.replicate 129 lettersOutput) 129).terminal_bytes.length := by
  have hscreen := length_screen_letters 129
  unfold snapshotAfter snapshotOf terminal_snapshot_bytes
  rw [List.take_of_length_le (by rw [List.length_replicate])]
  generalize screenAfter lettersOnly [] (List.replicate 129 lettersOutput) = screen at hscreen ⊢
  simp only [List.length_append]
  refine lt_of_lt_of_le ?_ (Nat.le_add_left _ _)
  unfold lettersOnly
  rw [List.length_append, List.length_drop, hscreen]
  decide

theorem letters_exceed {base : Nat} (hbase : base = 0) :
    ReplayExceeds false (List.replicate 129 lettersOutput) (max 0 base) := by
  unfold ReplayExceeds
  rw [hbase, max_self, List.drop_zero, payload_letters]
  exact .inl (by decide)

/-- 129 outputs are more than the 8 MiB of a replay, and the screen in their place is almost 2 MB,
which is more than a frame of the wire can carry. -/
theorem large_screen_is_never_sent :
    ∃ host final, launch castagnoli .default (List.replicate 16 1) (List.replicate 16 2)
        Disk.empty [] = .ok host ∧
      World.run lettersOnly castagnoli false lettersClient ⟨host, [], 0⟩
        ((List.replicate 129 lettersOutput).map Event.output) =
          ⟨final, List.replicate 129 lettersOutput, 0⟩ ∧ final.recording_paused = false ∧
      (World.served lettersOnly castagnoli false ⟨final, List.replicate 129 lettersOutput, 0⟩ []
        true).result = .error .ResourceLimit ∧
      lettersClient.attach castagnoli 0 (World.served lettersOnly castagnoli false
        ⟨final, List.replicate 129 lettersOutput, 0⟩ [] true).sent = .error .EndOfStream := by
  obtain ⟨host, final, hlaunch, hrun, hrecording, hpaused, hsession, hinstance⟩ :=
    letters_run (n := 129) (by decide)
  have hbase := base_letters (by decide) hrecording
  refine ⟨host, final, hlaunch, hrun, hpaused, ?_⟩
  have hpair : Pair final final lettersClient :=
    ⟨hsession.symm, rfl, by rw [hsession]; rfl, by rw [hinstance]; rfl, le_rfl⟩
  rcases attach_cases hrecording hrecording hpair letters_le true (Nat.zero_le _) with
    ⟨hfits, -⟩ | ⟨-, hfailed⟩
  · exact absurd (hfits.1 (letters_exceed hbase))
      (not_fits_of_large (by rw [List.length_replicate]; exact large_letters))
  · exact hfailed

end multiplex_session_host
