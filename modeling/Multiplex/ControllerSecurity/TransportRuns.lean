-- A connection under attack. Both ends seal what they like and are given what
-- bytes anybody likes. What is opened is what was sealed, in its order, and
-- what is left alone arrives.
import Multiplex.Lib.Runs
import Multiplex.ControllerSecurity.Transport

open multiplex_domain.controller_devices (ControllerCapability)

namespace multiplex_controller_security.transport

/-! ## Runs -/

/-- An end with what it sealed and opened, and which of its calls came through. -/
structure End where
  transport : ControllerTransport
  sealed : List ControllerFrame
  frames : List (List UInt8)
  opened : List ControllerFrame
  calls : List Bool

structure World where
  ends : Side → End
  made : List (Aead.Encryption Derived)

inductive Event where
  | seal (side : Side) (kind : ControllerFrameKind) (capability : ControllerCapability)
      (revocation_epoch : RevocationEpoch) (payload : List UInt8)
  | deliver (side : Side) (bytes : List UInt8)

/-- The key of what a side sends, so many frames in. -/
def state_at (side : Side) (n : Nat) : CipherState := ⟨⟨.sent_by side, (n - 1) / REKEY_INTERVAL⟩, n⟩

def start (policies : Side → AuthorizationPolicy) : World where
  ends side := ⟨⟨state_at side 0, state_at side.other 0, policies side, false⟩, [], [], [], []⟩
  made := []

namespace World

def set (w : World) (side : Side) (e : End) : World := { w with ends := Function.update w.ends side e }

def step (cipher : Aead.Cipher Derived) (w : World) : Event → World
  | .seal side kind capability revocation_epoch payload =>
    let e := w.ends side
    match e.transport.seal_frame cipher kind capability revocation_epoch payload with
    | (transport, .ok sealing) =>
      { w.set side { e with
          transport
          sealed := e.sealed ++ [⟨kind, capability, revocation_epoch, sealing.made.nonce, payload⟩]
          frames := e.frames ++ [sealing.frame]
          calls := e.calls ++ [true] } with
        made := w.made ++ [sealing.made] }
    | (transport, .error _) => w.set side { e with transport, calls := e.calls ++ [false] }
  | .deliver side bytes =>
    let e := w.ends side
    match e.transport.open_frame w.made bytes with
    | (transport, .ok opening) =>
      w.set side { e with transport, opened := e.opened ++ [opening.frame], calls := e.calls ++ [true] }
    | (transport, .error _) => w.set side { e with transport, calls := e.calls ++ [false] }

def run (cipher : Aead.Cipher Derived) (w : World) (events : List Event) : World :=
  Runs.run (step cipher) w events

@[simp] theorem ends_set_self (w : World) (side : Side) (e : End) : (w.set side e).ends side = e := by
  simp [set]

theorem ends_set_of_ne (w : World) {side side' : Side} (e : End) (h : side' ≠ side) :
    (w.set side e).ends side' = w.ends side' := by
  simp [set, h]

end World

@[simp] theorem Side.other_other (side : Side) : side.other.other = side := by cases side <;> rfl

theorem Side.other_ne (side : Side) : side.other ≠ side := by cases side <;> decide

/-! ## Keys -/

theorem key_at_sequence (side : Side) (n : Nat) :
    ((state_at side n).at_sequence n).key = ⟨.sent_by side, n / REKEY_INTERVAL⟩ := by
  unfold CipherState.at_sequence
  cases n with
  | zero => simp [state_at]
  | succ n =>
    rw [Nat.succ_div]
    by_cases hrekey : REKEY_INTERVAL ∣ n + 1
    · simp [hrekey, state_at, CipherState.rekey, Aead.Key.rekey]
    · simp [hrekey, state_at]

theorem advanced_at_sequence (side : Side) (n : Nat) :
    ((state_at side n).at_sequence n).advanced = state_at side (n + 1) := by
  have hkey := key_at_sequence side n
  have hnonce := nonce_at_sequence (state_at side n) n
  unfold CipherState.advanced
  rw [CipherState.mk.injEq, hkey, hnonce]
  simp [state_at]

def made_of (cipher : Aead.Cipher Derived) (side : Side) (f : ControllerFrame) :
    Aead.Encryption Derived :=
  Aead.encrypt cipher ⟨.sent_by side, f.sequence / REKEY_INTERVAL⟩ f.sequence
    (header_bytes (header_of f)) f.payload

def bytes_of (cipher : Aead.Cipher Derived) (side : Side) (f : ControllerFrame) : List UInt8 :=
  header_bytes (header_of f) ++ (made_of cipher side f).ciphertext

theorem sealing_at (cipher : Aead.Cipher Derived) (side : Side) (f : ControllerFrame) :
    sealing_of cipher (state_at side f.sequence) f =
      ⟨state_at side (f.sequence + 1), bytes_of cipher side f, made_of cipher side f⟩ := by
  have hnonce : (state_at side f.sequence).nonce = f.sequence := by simp [state_at]
  rw [sealing_of, key_at_sequence, advanced_at_sequence, hnonce]
  simp [bytes_of, made_of]

/-! ## What every run keeps -/

/-- What one end keeps, whatever the other does. -/
structure Kept (cipher : Aead.Cipher Derived) (policy : AuthorizationPolicy) (side : Side) (e : End) :
    Prop where
  granted : e.transport.policy = policy
  sequence : ∀ (i : Nat) f, e.sealed[i]? = some f → f.sequence = i
  fits : ∀ f ∈ e.sealed, Fits f.kind f.payload.length ∧ f.sequence ≤ MAX_SEQUENCE ∧
    policy.require f.capability f.revocation_epoch = .ok ()
  frames : e.frames = e.sealed.map (bytes_of cipher side)
  send : e.transport.failed = false → e.transport.send = state_at side e.sealed.length
  receive : e.transport.failed = false → e.transport.receive = state_at side.other e.opened.length
  calls : e.calls.Pairwise fun earlier later => later = true → earlier = true
  failed : e.transport.failed = false → ∀ call ∈ e.calls, call = true

structure Reached (cipher : Aead.Cipher Derived) (policies : Side → AuthorizationPolicy) (w : World) :
    Prop where
  kept : ∀ side, Kept cipher (policies side) side (w.ends side)
  opened : ∀ side, (w.ends side).opened <+: (w.ends side.other).sealed
  made : ∀ side, ∀ f ∈ (w.ends side).sealed, made_of cipher side f ∈ w.made
  origin : ∀ r ∈ w.made, ∃ side, ∃ f ∈ (w.ends side).sealed, r = made_of cipher side f
  fresh : Aead.NoncesFresh w.made

section
variable {cipher : Aead.Cipher Derived} {policy : AuthorizationPolicy} {side : Side} {e : End}

theorem calls_append {calls : List Bool} {call : Bool}
    (h : calls.Pairwise fun earlier later => later = true → earlier = true)
    (hcall : call = true → ∀ earlier ∈ calls, earlier = true) :
    (calls ++ [call]).Pairwise fun earlier later => later = true → earlier = true := by
  rw [List.pairwise_append]
  refine ⟨h, List.pairwise_singleton _ _, ?_⟩
  intro earlier hearlier later hlater htrue
  obtain rfl := List.mem_singleton.mp hlater
  exact hcall htrue earlier hearlier

theorem Kept.fails (h : Kept cipher policy side e) {transport : ControllerTransport}
    (hpolicy : transport.policy = policy) (hfailed : transport.failed = true) :
    Kept cipher policy side { e with transport, calls := e.calls ++ [false] } where
  granted := hpolicy
  sequence := h.sequence
  fits := h.fits
  frames := h.frames
  send := by simp [hfailed]
  receive := by simp [hfailed]
  calls := calls_append h.calls (by simp)
  failed := by simp [hfailed]

theorem Kept.seals (h : Kept cipher policy side e) (hactive : e.transport.failed = false)
    {f : ControllerFrame} (hturn : f.sequence = e.sealed.length)
    (hfits : Fits f.kind f.payload.length ∧ f.sequence ≤ MAX_SEQUENCE ∧
      policy.require f.capability f.revocation_epoch = .ok ()) : Kept cipher policy side { e with
      transport := { e.transport with send := state_at side (f.sequence + 1) }
      sealed := e.sealed ++ [f]
      frames := e.frames ++ [bytes_of cipher side f]
      calls := e.calls ++ [true] } where
  granted := h.granted
  sequence := by
    intro i g hg
    rw [List.getElem?_append] at hg
    split at hg
    · exact h.sequence i g hg
    · have hi := List.getElem?_eq_some_iff.mp hg
      obtain ⟨hlt, rfl⟩ := hi
      simp at hlt
      simp
      omega
  fits := by
    intro g hg
    rcases List.mem_append.mp hg with hg | hg
    · exact h.fits g hg
    · obtain rfl := List.mem_singleton.mp hg
      exact hfits
  frames := by simp [h.frames]
  send := by simp [hturn]
  receive := h.receive
  calls := calls_append h.calls fun _ => h.failed hactive
  failed := by
    intro _ call hcall
    rcases List.mem_append.mp hcall with hcall | hcall
    · exact h.failed hactive call hcall
    · exact List.mem_singleton.mp hcall

theorem Kept.opens (h : Kept cipher policy side e) (hactive : e.transport.failed = false)
    (f : ControllerFrame) : Kept cipher policy side { e with
      transport := { e.transport with receive := state_at side.other (e.opened.length + 1) }
      opened := e.opened ++ [f]
      calls := e.calls ++ [true] } where
  granted := h.granted
  sequence := h.sequence
  fits := h.fits
  frames := h.frames
  send := h.send
  receive := by simp
  calls := calls_append h.calls fun _ => h.failed hactive
  failed := by
    intro _ call hcall
    rcases List.mem_append.mp hcall with hcall | hcall
    · exact h.failed hactive call hcall
    · exact List.mem_singleton.mp hcall

end

section
variable {cipher : Aead.Cipher Derived} {policies : Side → AuthorizationPolicy} {w : World}

theorem reached_start (cipher : Aead.Cipher Derived) (policies : Side → AuthorizationPolicy) :
    Reached cipher policies (start policies) where
  kept side := by constructor <;> simp [start]
  opened := by simp [start]
  made := by simp [start]
  origin := by simp [start]
  fresh := Aead.noncesFresh_nil

theorem Reached.set (h : Reached cipher policies w) (side : Side) {e : End}
    (hkept : Kept cipher (policies side) side e) (hsealed : e.sealed = (w.ends side).sealed)
    (hopened : e.opened <+: (w.ends side.other).sealed) : Reached cipher policies (w.set side e) := by
  have hall : ∀ side', ((w.set side e).ends side').sealed = (w.ends side').sealed := by
    intro side'
    by_cases hside : side' = side
    · subst hside
      rw [World.ends_set_self, hsealed]
    · rw [World.ends_set_of_ne _ _ hside]
  refine ⟨?_, ?_, ?_, ?_, h.fresh⟩
  · intro side'
    by_cases hside : side' = side
    · subst hside
      rw [World.ends_set_self]
      exact hkept
    · rw [World.ends_set_of_ne _ _ hside]
      exact h.kept side'
  · intro side'
    rw [hall]
    by_cases hside : side' = side
    · subst hside
      rw [World.ends_set_self]
      exact hopened
    · rw [World.ends_set_of_ne _ _ hside]
      exact h.opened side'
  · intro side' f hf
    rw [hall] at hf
    exact h.made side' f hf
  · intro r hr
    obtain ⟨side', f, hf, hmade⟩ := h.origin r hr
    exact ⟨side', f, by rwa [hall], hmade⟩

theorem Reached.seals (h : Reached cipher policies w) (side : Side) {e : End} {f : ControllerFrame}
    (hkept : Kept cipher (policies side) side e) (hsealed : e.sealed = (w.ends side).sealed ++ [f])
    (hopened : e.opened = (w.ends side).opened) (hturn : f.sequence = (w.ends side).sealed.length) :
    Reached cipher policies { w.set side e with made := w.made ++ [made_of cipher side f] } := by
  have hmore : ∀ side', (w.ends side').sealed <+: ((w.set side e).ends side').sealed := by
    intro side'
    by_cases hside : side' = side
    · subst hside
      rw [World.ends_set_self, hsealed]
      exact List.prefix_append _ _
    · rw [World.ends_set_of_ne _ _ hside]
  refine ⟨?_, ?_, ?_, ?_, ?_⟩
  · intro side'
    by_cases hside : side' = side
    · subst hside
      simpa using hkept
    · simpa [World.ends_set_of_ne _ _ hside] using h.kept side'
  · intro side'
    have hsame : ((w.set side e).ends side').opened = (w.ends side').opened := by
      by_cases hside : side' = side
      · subst hside
        rw [World.ends_set_self, hopened]
      · rw [World.ends_set_of_ne _ _ hside]
    rw [hsame]
    exact (h.opened side').trans (hmore side'.other)
  · intro side' g hg
    by_cases hside : side' = side
    · subst hside
      simp only [World.ends_set_self, hsealed] at hg
      rcases List.mem_append.mp hg with hg | hg
      · exact List.mem_append_left _ (h.made side' g hg)
      · obtain rfl := List.mem_singleton.mp hg
        exact List.mem_append_right _ (List.mem_singleton_self _)
    · simp only [World.ends_set_of_ne _ _ hside] at hg
      exact List.mem_append_left _ (h.made side' g hg)
  · intro r hr
    rcases List.mem_append.mp hr with hr | hr
    · obtain ⟨side', g, hg, hmade⟩ := h.origin r hr
      exact ⟨side', g, (hmore side').subset hg, hmade⟩
    · exact ⟨side, f, by simp [hsealed], List.mem_singleton.mp hr⟩
  · apply h.fresh.append
    intro r hr hkey
    obtain ⟨side', g, hg, rfl⟩ := h.origin r hr
    -- one key is of one side, whose frames are numbered
    have hside : side' = side := by simpa [made_of, Aead.encrypt] using congrArg Aead.Key.base hkey
    subst hside
    obtain ⟨i, hi⟩ := List.mem_iff_getElem?.mp hg
    have hnumber := (h.kept side').sequence i g hi
    have hlt := (List.getElem?_eq_some_iff.mp hi).1
    simp only [made_of, Aead.encrypt]
    omega

theorem Reached.fails (h : Reached cipher policies w) (side : Side) {transport : ControllerTransport}
    (hpolicy : transport.policy = policies side) (hfailed : transport.failed = true) :
    Reached cipher policies (w.set side
      { w.ends side with transport, calls := (w.ends side).calls ++ [false] }) :=
  h.set side ((h.kept side).fails hpolicy hfailed) rfl (h.opened side)

theorem Reached.seal (h : Reached cipher policies w) (side : Side) (kind : ControllerFrameKind)
    (capability : ControllerCapability) (revocation_epoch : RevocationEpoch) (payload : List UInt8) :
    Reached cipher policies (w.step cipher (.seal side kind capability revocation_epoch payload)) := by
  have hkept := h.kept side
  simp only [World.step, ControllerTransport.seal_frame]
  by_cases hfailed : (w.ends side).transport.failed = true
  · rw [if_pos hfailed]
    exact h.fails side hkept.granted hfailed
  · rw [if_neg hfailed]
    rw [Bool.not_eq_true] at hfailed
    cases hseal : (w.ends side).transport.seal_inner cipher kind capability revocation_epoch payload with
    | error error => exact h.fails side hkept.granted rfl
    | ok sealing =>
      obtain ⟨hpolicy, hfits, hsequence, hsealing⟩ := seal_inner_ok hseal
      have hsend := hkept.send hfailed
      have hnonce : (w.ends side).transport.send.nonce = (w.ends side).sealed.length := by
        rw [hsend]
        rfl
      rw [hkept.granted] at hpolicy
      rw [hnonce] at hsequence hsealing
      rw [hsend] at hsealing
      have hnext := sealing_at cipher side
        ⟨kind, capability, revocation_epoch, (w.ends side).sealed.length, payload⟩
      rw [hnext] at hsealing
      subst hsealing
      exact h.seals side (hkept.seals hfailed rfl ⟨hfits, hsequence, hpolicy⟩) rfl rfl rfl

theorem Reached.opens (h : Reached cipher policies w) {side : Side}
    (hfailed : (w.ends side).transport.failed = false) {bytes : List UInt8} {opening : Opening}
    (hopen : (w.ends side).transport.open_inner w.made bytes = .ok opening) :
    (w.ends side.other).sealed[(w.ends side).opened.length]? = some opening.frame ∧
      opening.receive = state_at side.other ((w.ends side).opened.length + 1) := by
  obtain ⟨header, hheader, hturn, hreceive, hframe, hmade⟩ := open_inner_ok hopen
  have hstate := (h.kept side).receive hfailed
  have hnonce : (w.ends side).transport.receive.nonce = (w.ends side).opened.length := by
    rw [hstate]
    rfl
  rw [hnonce, hstate] at hreceive hmade
  rw [key_at_sequence] at hmade
  rw [advanced_at_sequence] at hreceive
  refine ⟨?_, hreceive⟩
  obtain ⟨side', f, hf, hof⟩ := h.origin _ hmade
  simp [made_of, Aead.encrypt] at hof
  obtain ⟨⟨rfl, -⟩, hsequence, had, hpayload, -⟩ := hof
  -- the frame was sealed under the header that came with it
  have hbytes : bytes = header_bytes (header_of f) ++ bytes.drop FRAME_HEADER_BYTES := by
    rw [← had, List.take_append_drop]
  have hfits := (h.kept side.other).fits f hf
  have hseq : f.sequence < 2 ^ 64 := by
    have := hfits.2.1
    simp only [MAX_SEQUENCE] at this
    omega
  rw [hbytes, decode_header_bytes hseq hfits.1.frame.2] at hheader
  simp only [Checks.bind_ok_iff, Checks.refuseIf_ok_iff, Checks.pure_ok_iff] at hheader
  obtain ⟨_, _, _, _, rfl⟩ := hheader
  have hopened : opening.frame = f := by
    rw [hframe, hpayload]
    rfl
  obtain ⟨i, hi⟩ := List.mem_iff_getElem?.mp hf
  have hnumber := (h.kept side.other).sequence i f hi
  rw [hopened, hsequence, hnumber, hi]

theorem prefix_append_next {α : Type} {opened sealed : List α} {a : α} (h : opened <+: sealed)
    (hnext : sealed[opened.length]? = some a) : opened ++ [a] <+: sealed := by
  obtain ⟨rest, rfl⟩ := h
  cases rest with
  | nil => simp at hnext
  | cons b rest =>
    obtain rfl : b = a := by simpa using hnext
    exact ⟨rest, by simp⟩

theorem Reached.deliver (h : Reached cipher policies w) (side : Side) (bytes : List UInt8) :
    Reached cipher policies (w.step cipher (.deliver side bytes)) := by
  have hkept := h.kept side
  simp only [World.step, ControllerTransport.open_frame]
  by_cases hfailed : (w.ends side).transport.failed = true
  · rw [if_pos hfailed]
    exact h.fails side hkept.granted hfailed
  · rw [if_neg hfailed]
    rw [Bool.not_eq_true] at hfailed
    cases hopen : (w.ends side).transport.open_inner w.made bytes with
    | error error => exact h.fails side hkept.granted rfl
    | ok opening =>
      obtain ⟨hnext, hreceive⟩ := h.opens hfailed hopen
      have hopens := hkept.opens hfailed opening.frame
      rw [← hreceive] at hopens
      exact h.set side hopens rfl (prefix_append_next (h.opened side) hnext)

theorem Reached.step (h : Reached cipher policies w) (event : Event) :
    Reached cipher policies (w.step cipher event) := by
  rcases event with ⟨side, kind, capability, revocation_epoch, payload⟩ | ⟨side, bytes⟩
  · exact h.seal side kind capability revocation_epoch payload
  · exact h.deliver side bytes

theorem reached_run (cipher : Aead.Cipher Derived) (policies : Side → AuthorizationPolicy)
    (events : List Event) : Reached cipher policies ((start policies).run cipher events) :=
  Runs.keeps_always (Reached cipher policies) (fun _ event h => h.step event)
    (reached_start cipher policies) events

theorem Reached.seal_next (h : Reached cipher policies w) {side : Side}
    (hfailed : (w.ends side).transport.failed = false) {kind : ControllerFrameKind}
    {capability : ControllerCapability} {revocation_epoch : RevocationEpoch} {payload : List UInt8}
    (hpolicy : (policies side).require capability revocation_epoch = .ok ())
    (hfits : Fits kind payload.length) (hsequence : (w.ends side).sealed.length ≤ MAX_SEQUENCE) :
    let f : ControllerFrame :=
      ⟨kind, capability, revocation_epoch, (w.ends side).sealed.length, payload⟩
    (w.ends side).transport.seal_frame cipher kind capability revocation_epoch payload =
        ({ (w.ends side).transport with send := state_at side (f.sequence + 1) },
          .ok ⟨state_at side (f.sequence + 1), bytes_of cipher side f, made_of cipher side f⟩) ∧
      w.step cipher (.seal side kind capability revocation_epoch payload) =
        { w.set side { w.ends side with
            transport := { (w.ends side).transport with send := state_at side (f.sequence + 1) }
            sealed := (w.ends side).sealed ++ [f]
            frames := (w.ends side).frames ++ [bytes_of cipher side f]
            calls := (w.ends side).calls ++ [true] } with
          made := w.made ++ [made_of cipher side f] } := by
  intro f
  have hsend := (h.kept side).send hfailed
  have hnonce : (w.ends side).transport.send.nonce = f.sequence := by
    rw [hsend]
    rfl
  rw [← (h.kept side).granted] at hpolicy
  have hseal := seal_inner_of_fits cipher hpolicy hfits (by rw [hnonce]; exact hsequence)
  have hof := sealing_at cipher side f
  rw [hnonce, hsend] at hseal
  rw [show (⟨kind, capability, revocation_epoch, f.sequence, payload⟩ : ControllerFrame) = f from rfl,
    hof] at hseal
  have hframe : (w.ends side).transport.seal_frame cipher kind capability revocation_epoch payload =
      ({ (w.ends side).transport with send := state_at side (f.sequence + 1) },
        .ok ⟨state_at side (f.sequence + 1), bytes_of cipher side f, made_of cipher side f⟩) := by
    rw [seal_frame_active hfailed, hseal]
  refine ⟨hframe, ?_⟩
  simp only [World.step, hframe]
  rfl

/-! ## What is left alone arrives -/

section
variable (hcipher : ∀ key nonce ad plaintext,
  (cipher key nonce ad plaintext).length = plaintext.length + AEAD_TAG_BYTES)
include hcipher

section
variable (h : Reached cipher policies w)
include h

theorem Reached.open_next {side : Side} (hpolicies : policies side = policies side.other)
    (hfailed : (w.ends side).transport.failed = false) {f : ControllerFrame}
    (hnext : (w.ends side.other).sealed[(w.ends side).opened.length]? = some f) :
    (w.ends side).transport.open_inner w.made (bytes_of cipher side.other f) =
      .ok ⟨state_at side.other ((w.ends side).opened.length + 1), f⟩ := by
  have hf := List.mem_of_getElem? hnext
  have hkept := h.kept side
  obtain ⟨hfits, hsequence, hpolicy⟩ := (h.kept side.other).fits f hf
  have hnumber := (h.kept side.other).sequence _ f hnext
  have hstate := hkept.receive hfailed
  rw [← hpolicies, ← hkept.granted] at hpolicy
  have hdecrypt := Aead.decrypt_of_made h.fresh (h.made side.other f hf)
  have hkey : ((w.ends side).transport.receive.at_sequence f.sequence).key =
      (made_of cipher side.other f).key := by
    rw [hstate, ← hnumber, key_at_sequence]
    rfl
  rw [← hkey] at hdecrypt
  have hlength : (made_of cipher side.other f).ciphertext.length = f.payload.length + AEAD_TAG_BYTES :=
    hcipher _ _ _ _
  have hopen := open_inner_sealed hpolicy hfits (by rw [hstate, hnumber]; rfl) hsequence hlength hdecrypt
  have hadvanced : ((w.ends side).transport.receive.at_sequence f.sequence).advanced =
      state_at side.other ((w.ends side).opened.length + 1) := by
    rw [hstate, ← hnumber, advanced_at_sequence]
  rw [hadvanced] at hopen
  exact hopen

theorem Reached.opens_next {side : Side} (hpolicies : policies side = policies side.other)
    (hfailed : (w.ends side).transport.failed = false) {f : ControllerFrame}
    (hnext : (w.ends side.other).sealed[(w.ends side).opened.length]? = some f) :
    w.step cipher (.deliver side (bytes_of cipher side.other f)) = w.set side { w.ends side with
      transport := { (w.ends side).transport with
        receive := state_at side.other ((w.ends side).opened.length + 1) }
      opened := (w.ends side).opened ++ [f]
      calls := (w.ends side).calls ++ [true] } := by
  have hopen := h.open_next hcipher hpolicies hfailed hnext
  simp only [World.step, open_frame_active hfailed, hopen]

/-- Delivered one after the other, all the frames that are left open. -/
theorem Reached.opens_rest {side : Side} (hpolicies : policies side = policies side.other)
    (hfailed : (w.ends side).transport.failed = false) :
    let rest := ((w.ends side.other).frames.drop (w.ends side).opened.length).map (.deliver side)
    ((w.run cipher rest).ends side).opened = (w.ends side.other).sealed ∧
      ((w.run cipher rest).ends side).transport.failed = false := by
  intro rest
  obtain ⟨left, hleft⟩ := h.opened side
  induction left generalizing w with
  | nil =>
    have hdone : (w.ends side).opened = (w.ends side.other).sealed := by simpa using hleft
    have hrest : rest = [] := by
      simp [rest, (h.kept side.other).frames, hdone]
    rw [hrest]
    exact ⟨hdone, hfailed⟩
  | cons f left ih =>
    have hnext : (w.ends side.other).sealed[(w.ends side).opened.length]? = some f := by
      simp [← hleft]
    have hstep := h.opens_next hcipher hpolicies hfailed hnext
    have hreached := h.step (.deliver side (bytes_of cipher side.other f))
    have hother : ((w.step cipher (.deliver side (bytes_of cipher side.other f))).ends side.other) =
        w.ends side.other := by
      rw [hstep, World.ends_set_of_ne _ _ side.other_ne]
    have hopened : ((w.step cipher (.deliver side (bytes_of cipher side.other f))).ends side).opened =
        (w.ends side).opened ++ [f] := by
      rw [hstep, World.ends_set_self]
    have hrest : rest = .deliver side (bytes_of cipher side.other f) ::
        ((w.ends side.other).frames.drop ((w.ends side).opened.length + 1)).map (.deliver side) := by
      have hframe : (w.ends side.other).frames[(w.ends side).opened.length]? =
          some (bytes_of cipher side.other f) := by
        rw [(h.kept side.other).frames, List.getElem?_map, hnext, Option.map_some]
      obtain ⟨hlen, hget⟩ := List.getElem?_eq_some_iff.mp hframe
      rw [← hget, ← List.map_cons, ← List.drop_eq_getElem_cons hlen]
    have hlast := ih hreached (by rw [hstep, World.ends_set_self]; exact hfailed)
      (by rw [hother, hopened, List.append_assoc, List.singleton_append, hleft])
    rw [hother, hopened, List.length_append, List.length_singleton] at hlast
    rw [hrest]
    exact hlast

end

end

end

/-! ## The channel -/

/-- Whatever two ends seal and are given: each opens a prefix of what the
other sealed, frame for frame; after a call that fails every call of that end
fails; the keys are a function of the number of the frame at both ends, and
under no key a nonce is used again; and under one policy the frames that are
left over open, where they come unchanged and in their order. -/
theorem the_transport_is_a_secure_ordered_channel (cipher : Aead.Cipher Derived)
    (hcipher : ∀ key nonce ad plaintext,
      (cipher key nonce ad plaintext).length = plaintext.length + AEAD_TAG_BYTES)
    (policies : Side → AuthorizationPolicy) (events : List Event) :
    let w := (start policies).run cipher events
    (∀ side, (w.ends side).opened <+: (w.ends side.other).sealed) ∧
    (∀ side, (w.ends side).calls.Pairwise fun earlier later => later = true → earlier = true) ∧
    (∀ side, (w.ends side).transport.failed = false →
      (w.ends side).transport.send = state_at side (w.ends side).sealed.length ∧
      (w.ends side).transport.receive = state_at side.other (w.ends side).opened.length) ∧
    (∀ r ∈ w.made, r.key.generation = r.nonce / REKEY_INTERVAL) ∧
    Aead.NoncesFresh w.made ∧
    (policies .Host = policies .Device → ∀ side, (w.ends side).transport.failed = false →
      let rest := ((w.ends side.other).frames.drop (w.ends side).opened.length).map (.deliver side)
      ((w.run cipher rest).ends side).opened = (w.ends side.other).sealed ∧
        ((w.run cipher rest).ends side).transport.failed = false) := by
  intro w
  have h : Reached cipher policies w := reached_run cipher policies events
  refine ⟨h.opened, fun side => (h.kept side).calls, ?_, ?_, h.fresh, ?_⟩
  · intro side hfailed
    exact ⟨(h.kept side).send hfailed, (h.kept side).receive hfailed⟩
  · intro r hr
    obtain ⟨side, f, hf, rfl⟩ := h.origin r hr
    rfl
  · intro hpolicies side hfailed
    apply h.opens_rest hcipher ?_ hfailed
    cases side with
    | Host => exact hpolicies
    | Device => exact hpolicies.symm

def paddedCipher : Aead.Cipher Derived := fun _ _ _ plaintext =>
  plaintext ++ List.replicate AEAD_TAG_BYTES 0

def sampleFrame (sequence : Nat) : ControllerFrame := ⟨.Control, .SendInput, 3, sequence, [7, 8]⟩

/-- Two frames are sealed. One is delivered, and then again. -/
def sampleEvents : List Event :=
  [.seal .Device .Control .SendInput 3 [7, 8], .seal .Device .Control .SendInput 3 [7, 8],
    .deliver .Host (bytes_of paddedCipher .Device (sampleFrame 0)),
    .deliver .Host (bytes_of paddedCipher .Device (sampleFrame 0))]

/-- The frame opens once. -/
theorem a_frame_opens_once :
    let w := (start fun _ => ⟨⟨0x1ff⟩, 3⟩).run paddedCipher sampleEvents
    (w.ends .Host).calls = [true, false] ∧ (w.ends .Host).opened = [sampleFrame 0] ∧
    (w.ends .Host).opened <+: (w.ends .Device).sealed :=
  ⟨by decide +kernel, by decide +kernel,
    (the_transport_is_a_secure_ordered_channel paddedCipher (by simp [paddedCipher])
      (fun _ => ⟨⟨0x1ff⟩, 3⟩) sampleEvents).1 .Host⟩

end multiplex_controller_security.transport
