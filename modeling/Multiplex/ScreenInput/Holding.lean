-- The laws of the injector's notes. Every call sends one press or some
-- releases of what is noted, so the notes never run ahead of what is down; and
-- what is down is noted until a release is lost.
import Multiplex.Lib.Presses
import Multiplex.ScreenInput.Injector

open multiplex_screen_codec multiplex_screen_protocol Presses

namespace multiplex_screen_input

/-! ## What is noted and what is down -/

inductive Control
  | key (usage : UInt16)
  | button (button : PointerButton)
  deriving DecidableEq

variable {F : Type}

/-- The control that an event presses or releases, and which of the two. -/
def SinkEvent.control : SinkEvent F → Option (Control × Bool)
  | .Key usage pressed _ _ => some (.key usage, pressed)
  | .PointerButton _ button pressed _ _ => some (.button button, pressed)
  | _ => none

def asPost (posted : SinkEvent F × Except InputError Unit) : Option (Post Control) :=
  posted.1.control.map fun c => ⟨c.1, c.2, posted.2.isOk⟩

/-- The presses and releases among the posts. -/
def controlTrace (posts : List (SinkEvent F × Except InputError Unit)) : List (Post Control) :=
  posts.filterMap asPost

def Injector.Tracks (i : Injector F) : Control → Prop
  | .key usage => i.keys.contains usage.toNat = true
  | .button button => (i.buttons button).isSome = true

def World.tracker (w : World F) : Tracker Control := ⟨w.injector.Tracks, controlTrace w.posts⟩

/-- The control is down: the last event of it that was posted was a press. -/
def World.Down (w : World F) (c : Control) : Prop := down (controlTrace w.posts) c = true

/-- A held button has been pressed somewhere, and the keys are `u16`. -/
structure World.Good (w : World F) : Prop where
  pointer : ∀ b, (w.injector.buttons b).isSome = true → w.injector.pointer.isSome = true
  keys : ∀ k, w.injector.keys.contains k = true → k < 65536

/-- The state a call leaves, whether it fails or not. -/
def final {α : Type} (m : InjectM F α) (w : World F) : World F :=
  match m w with
  | .ok _ w' => w'
  | .error _ w' => w'

theorem controlTrace_append (posts : List (SinkEvent F × Except InputError Unit))
    (posted : SinkEvent F × Except InputError Unit) :
    controlTrace (posts ++ [posted]) = controlTrace posts ++ (asPost posted).toList := by
  unfold controlTrace
  cases h : asPost posted <;> simp [h]

theorem tracker_ext {t t' : Tracker Control} (h1 : ∀ c, t.noted c ↔ t'.noted c)
    (h2 : t.trace = t'.trace) : t = t' := by
  obtain ⟨noted, trace⟩ := t
  obtain ⟨noted', trace'⟩ := t'
  have : noted = noted' := funext fun c => propext (h1 c)
  cases this
  cases h2
  rfl

/-! ## Calls that press and release nothing -/

/-- The call leaves the tracker as it was, and the state good. -/
def Keeps {α : Type} (m : InjectM F α) : Prop :=
  ∀ w : World F, w.Good → (final m w).tracker = w.tracker ∧ (final m w).Good

variable {w : World F} {event : SinkEvent F}

variable {w' : World F} {c : Control} {outcome : Except InputError Unit}

theorem final_bind_ok {α β : Type} {m : InjectM F α} {next : α → InjectM F β} {a : α}
    (h : m w = .ok a w') : final (m >>= next) w = final (next a) w' := by
  unfold final
  change (match EStateM.bind m next w with | .ok _ w' => w' | .error _ w' => w') = _
  unfold EStateM.bind
  rw [h]

theorem final_bind_error {α β : Type} {m : InjectM F α} {next : α → InjectM F β} {e : InputError}
    (h : m w = .error e w') : final (m >>= next) w = w' := by
  change (match EStateM.bind m next w with | .ok _ w' => w' | .error _ w' => w') = _
  unfold EStateM.bind
  rw [h]

theorem run_bind_ok {α β : Type} {m : InjectM F α} {next : α → InjectM F β} {a : α}
    (h : m w = .ok a w') : (m >>= next) w = next a w' := by
  change EStateM.bind m next w = _
  unfold EStateM.bind
  rw [h]

theorem Keeps.pure {α : Type} (a : α) : Keeps (pure a : InjectM F α) := fun _ hw => ⟨rfl, hw⟩

theorem Keeps.throw {α : Type} (e : InputError) : Keeps (throw e : InjectM F α) :=
  fun _ hw => ⟨rfl, hw⟩

theorem Keeps.bind {α β : Type} {m : InjectM F α} {next : α → InjectM F β} (h1 : Keeps m)
    (h2 : ∀ a, Keeps (next a)) : Keeps (m >>= next) := by
  intro w hw
  have hm := h1 w hw
  cases hr : m w with
  | ok a w' =>
    rw [final_bind_ok hr]
    simp only [final, hr] at hm
    have hn := h2 a w' hm.2
    exact ⟨hn.1.trans hm.1, hn.2⟩
  | error e w' =>
    rw [final_bind_error hr]
    simpa only [final, hr] using hm

theorem Keeps.injector : Keeps (injector : InjectM F (Injector F)) := fun _ hw => ⟨rfl, hw⟩

theorem Keeps.update {f : Injector F → Injector F} (hkeys : ∀ i, (f i).keys = i.keys)
    (hbuttons : ∀ i, (f i).buttons = i.buttons)
    (hpointer : ∀ i, i.pointer.isSome = true → (f i).pointer.isSome = true) : Keeps (update f) := by
  intro w hw
  refine ⟨tracker_ext ?_ rfl, ⟨?_, ?_⟩⟩
  · intro c
    cases c with
    | key usage =>
      change (f w.injector).keys.contains _ = _ ↔ _
      rw [hkeys]
      rfl
    | button b =>
      change ((f w.injector).buttons b).isSome = _ ↔ _
      rw [hbuttons]
      rfl
  · intro b hb
    refine hpointer _ (hw.pointer b ?_)
    rwa [← hbuttons]
  · intro k hk
    refine hw.keys k ?_
    rwa [← hkeys]

variable (num : Numbers F) (sink : Nat → Except InputError Unit)

theorem post_run (event : SinkEvent F) (w : World F) : post sink event w =
      match sink w.posts.length with
      | .ok () => .ok () { w with posts := w.posts ++ [(event, .ok ())] }
      | .error e => .error e { w with posts := w.posts ++ [(event, .error e)] } := by
  change (match (sink w.posts.length : Except InputError Unit) with
    | .ok () => Pure.pure ()
    | .error e => MonadExcept.throw e : InjectM F Unit)
      { w with posts := w.posts ++ [(event, sink w.posts.length)] } = _
  cases sink w.posts.length <;> rfl

theorem final_post (event : SinkEvent F) (w : World F) : final (post sink event) w =
      { w with posts := w.posts ++ [(event, sink w.posts.length)] } := by
  unfold final
  rw [post_run]
  cases sink w.posts.length <;> rfl

theorem Keeps.post (h : event.control = none) : Keeps (post sink event) := by
  intro w hw
  rw [final_post]
  refine ⟨tracker_ext (fun _ => Iff.rfl) ?_, ⟨hw.pointer, hw.keys⟩⟩
  change controlTrace _ = controlTrace _
  rw [controlTrace_append, asPost, h]
  simp

theorem keeps_locate (surface x y : UInt32) : Keeps (locate num surface x y) := by
  refine Keeps.injector.bind fun i => ?_
  split
  · exact Keeps.pure _
  · exact Keeps.throw _

theorem keeps_move_to (at_ : Point F) : Keeps (move_to num sink at_) := by
  refine Keeps.injector.bind fun i => ?_
  split
  · refine (Keeps.post sink rfl).bind fun _ => ?_
    apply Keeps.update
    · exact fun _ => rfl
    · exact fun _ => rfl
    · exact fun _ _ => rfl
  · exact Keeps.pure _

theorem move_to_pointer {at_ : Point F} (h : move_to num sink at_ w = .ok () w') :
    w'.injector.pointer.isSome = true := by
  change (ite _ _ _ : InjectM F Unit) w = _ at h
  split at h
  · change EStateM.bind (post sink _) _ w = _ at h
    unfold EStateM.bind at h
    rw [post_run] at h
    cases hs : sink w.posts.length with
    | ok u =>
      rw [hs] at h
      cases h
      rfl
    | error e =>
      rw [hs] at h
      cases h
  · rename_i hat
    cases h
    cases hp : w.injector.pointer with
    | none => simp [pointer_is, hp] at hat
    | some p => rfl

theorem keeps_scroll (surface : UInt32) (at_ : Point F) (dx dy : Int32) :
    Keeps (scroll num sink surface at_ dx dy) := by
  refine Keeps.injector.bind fun i => ?_
  split
  · exact Keeps.throw _
  · refine Keeps.bind (Keeps.update ?_ ?_ ?_) fun _ => ?_
    · exact fun _ => rfl
    · exact fun _ => rfl
    · exact fun _ h => h
    · split
      · exact Keeps.pure _
      · exact Keeps.post sink rfl

theorem keeps_post_chunks (chunks : List (List Char)) :
    Keeps (post_chunks sink chunks : InjectM F Unit) := by
  induction chunks with
  | nil => exact Keeps.pure _
  | cons chunk chunks ih => exact (Keeps.post sink rfl).bind fun _ => ih

theorem keeps_set_layout (layout : DisplayLayout F) : Keeps (set_layout layout) :=
  Keeps.update (fun _ => rfl) (fun _ => rfl) (fun _ h => h)

/-! ## Calls that press and release -/

/-- The events of one call: a press, or releases of what is noted. -/
def Bursts {α : Type} (m : InjectM F α) : Prop :=
  ∀ w : World F, w.Good → Burst w.tracker (final m w).tracker ∧ (final m w).Good

theorem Keeps.bursts {α : Type} {m : InjectM F α} (h : Keeps m) : Bursts m := by
  intro w hw
  obtain ⟨h1, h2⟩ := h w hw
  refine ⟨?_, h2⟩
  rw [h1]
  exact Burst.releases (Releases.done _)

theorem Keeps.then {α β : Type} {m : InjectM F α} {next : α → InjectM F β} (h1 : Keeps m)
    (h2 : ∀ a, Bursts (next a)) : Bursts (m >>= next) := by
  intro w hw
  have hm := h1 w hw
  cases hr : m w with
  | ok a w' =>
    rw [final_bind_ok hr]
    simp only [final, hr] at hm
    rw [← hm.1]
    exact h2 a w' hm.2
  | error e w' =>
    rw [final_bind_error hr]
    simp only [final, hr] at hm
    rw [← hm.1]
    exact ⟨Burst.releases (Releases.done _), hm.2⟩

theorem contains_insert (m : SortedMap Nat Unit) (k k' : Nat) :
    (m.insert k ()).contains k' = true ↔ m.contains k' = true ∨ k' = k := by
  unfold SortedMap.contains
  by_cases h : k' = k
  · subst h
    simp [SortedMap.get?_insert_self]
  · rw [SortedMap.get?_insert_of_ne h]
    simp [h]

theorem contains_erase (m : SortedMap Nat Unit) (k k' : Nat) :
    (m.erase k).contains k' = true ↔ m.contains k' = true ∧ k' ≠ k := by
  unfold SortedMap.contains
  by_cases h : k' = k
  · subst h
    simp [SortedMap.get?_erase_self]
  · rw [SortedMap.get?_erase_of_ne h]
    simp [h]

theorem final_injector {α : Type} (next : Injector F → InjectM F α) (w : World F) :
    final (injector >>= next) w = final (next w.injector) w := rfl

theorem final_update {α : Type} (f : Injector F → Injector F) (next : Unit → InjectM F α)
    (w : World F) :
    final (update f >>= next) w = final (next ()) { w with injector := f w.injector } := rfl

theorem final_post_then {α : Type} (event : SinkEvent F) (next : Unit → InjectM F α) (w : World F) :
    final (post sink event >>= next) w =
      match sink w.posts.length with
      | .ok () => final (next ()) { w with posts := w.posts ++ [(event, .ok ())] }
      | .error e => { w with posts := w.posts ++ [(event, .error e)] } := by
  have hrun := post_run sink event w
  cases hs : sink w.posts.length with
  | ok u =>
    rw [hs] at hrun
    exact final_bind_ok hrun
  | error e =>
    rw [hs] at hrun
    exact final_bind_error hrun

theorem burst_press (outcome : Except InputError Unit) (hevent : event.control = some (c, true))
    (hposts : w'.posts = w.posts ++ [(event, outcome)])
    (hnoted : ∀ c', w'.injector.Tracks c' ↔ w.injector.Tracks c' ∨ (outcome.isOk = true ∧ c' = c)) :
    Burst w.tracker w'.tracker := by
  have htracker : w'.tracker = w.tracker.press c outcome.isOk := by
    refine tracker_ext hnoted ?_
    change controlTrace w'.posts = controlTrace w.posts ++ _
    rw [hposts, controlTrace_append, asPost, hevent]
    rfl
  rw [htracker]
  exact Burst.press _ _ _

theorem tracker_release (hevent : event.control = some (c, false))
    (hposts : w'.posts = w.posts ++ [(event, outcome)])
    (hnoted : ∀ c', w'.injector.Tracks c' ↔ w.injector.Tracks c' ∧ c' ≠ c) :
    w'.tracker = w.tracker.release c outcome.isOk := by
  refine tracker_ext hnoted ?_
  change controlTrace w'.posts = controlTrace w.posts ++ _
  rw [hposts, controlTrace_append, asPost, hevent]
  rfl

theorem burst_release (htracks : w.injector.Tracks c) (hevent : event.control = some (c, false))
    (hposts : w'.posts = w.posts ++ [(event, outcome)])
    (hnoted : ∀ c', w'.injector.Tracks c' ↔ w.injector.Tracks c' ∧ c' ≠ c) :
    Burst w.tracker w'.tracker := by
  refine Burst.releases (Releases.more c outcome.isOk htracks ?_)
  rw [tracker_release hevent hposts hnoted]
  exact Releases.done _

section
variable (i : Injector F)

theorem tracks_insert_key (usage : UInt16) (c : Control) :
    Injector.Tracks { i with keys := i.keys.insert usage.toNat () } c ↔
      i.Tracks c ∨ c = .key usage := by
  cases c with
  | key u =>
    unfold Injector.Tracks
    simp [contains_insert, UInt16.toNat_inj]
  | button b =>
    unfold Injector.Tracks
    simp

theorem tracks_erase_key (usage : UInt16) (c : Control) :
    Injector.Tracks { i with keys := i.keys.erase usage.toNat } c ↔
      i.Tracks c ∧ c ≠ .key usage := by
  cases c with
  | key u =>
    unfold Injector.Tracks
    simp [contains_erase, UInt16.toNat_inj]
  | button b =>
    unfold Injector.Tracks
    simp

theorem tracks_hold_button (b : PointerButton) (clicks : UInt8) (c : Control) :
    Injector.Tracks { i with buttons := Function.update i.buttons b (some clicks) } c ↔
      i.Tracks c ∨ c = .button b := by
  cases c with
  | key u =>
    unfold Injector.Tracks
    simp
  | button b' =>
    unfold Injector.Tracks
    by_cases h : b' = b
    · subst h
      simp
    · simp [h]

theorem tracks_drop_button (b : PointerButton) (c : Control) :
    Injector.Tracks { i with buttons := Function.update i.buttons b none } c ↔
      i.Tracks c ∧ c ≠ .button b := by
  cases c with
  | key u =>
    unfold Injector.Tracks
    simp
  | button b' =>
    unfold Injector.Tracks
    by_cases h : b' = b
    · subst h
      simp
    · simp [h]

end

theorem good_press (hw : w.Good) (hpointer : w'.injector.pointer = w.injector.pointer)
    (hbuttons : ∀ b, (w'.injector.buttons b).isSome = true →
      (w.injector.buttons b).isSome = true ∨ w.injector.pointer.isSome = true)
    (hkeys : ∀ k, w'.injector.keys.contains k = true →
      w.injector.keys.contains k = true ∨ k < 65536) : w'.Good where
  pointer b hb := by
    rw [hpointer]
    rcases hbuttons b hb with h | h
    · exact hw.pointer b h
    · exact h
  keys k hk := by
    rcases hkeys k hk with h | h
    · exact hw.keys k h
    · exact h

theorem bursts_key (event : KeyEvent) : Bursts (key sink event : InjectM F Unit) := by
  unfold key
  split
  · exact (Keeps.throw _).bursts
  · apply Keeps.then
    · exact Keeps.update (fun _ => rfl) (fun _ => rfl) (fun _ h => h)
    intro _ w hw
    rw [final_injector]
    by_cases hp : event.pressed = true
    · rw [if_pos hp, final_post_then]
      cases hs : sink w.posts.length with
      | ok u =>
        refine ⟨burst_press (.ok ()) rfl rfl fun c => ?_, good_press hw rfl (fun b => Or.inl) ?_⟩
        · exact (tracks_insert_key w.injector event.usage c).trans (by simp [Except.isOk, Except.toBool])
        · intro k hk
          rcases (contains_insert _ _ _).mp hk with h | rfl
          · exact .inl h
          · exact .inr event.usage.toNat_lt
      | error e =>
        refine ⟨burst_press (.error e) rfl rfl fun c => ?_, ⟨hw.pointer, hw.keys⟩⟩
        simp [Except.isOk, Except.toBool]
    · rw [if_neg hp]
      split
      · rename_i hheld
        rw [final_update, final_post]
        refine ⟨burst_release (c := .key event.usage) hheld rfl rfl fun c => ?_,
          good_press hw rfl (fun b => Or.inl) ?_⟩
        · exact tracks_erase_key w.injector event.usage c
        · intro k hk
          exact .inl ((contains_erase _ _ _).mp hk).1
      · exact (Keeps.pure ()).bursts w hw

theorem bursts_button (at_ : Point F) (b : PointerButton) (pressed : Bool) (now_ms : UInt64)
    (hw : w.Good) (hpointer : w.injector.pointer.isSome = true) :
    Burst w.tracker (final (button num sink at_ b pressed now_ms) w).tracker ∧
      (final (button num sink at_ b pressed now_ms) w).Good := by
  unfold button
  rw [final_injector]
  by_cases hp : pressed = true
  · rw [if_pos hp]
    split
    · exact (Keeps.pure ()).bursts w hw
    · rw [final_post_then]
      cases hs : sink w.posts.length with
      | ok u =>
        refine ⟨burst_press (.ok ()) rfl rfl fun c => ?_,
          good_press hw rfl (fun _ _ => .inr hpointer) (fun k => Or.inl)⟩
        exact (tracks_hold_button w.injector b _ c).trans (by simp [Except.isOk, Except.toBool])
      | error e =>
        refine ⟨burst_press (.error e) rfl rfl fun c => ?_, ⟨hw.pointer, hw.keys⟩⟩
        simp [Except.isOk, Except.toBool]
  · rw [if_neg hp]
    split
    · exact (Keeps.pure ()).bursts w hw
    · rename_i clicks hheld
      rw [final_update, final_post]
      refine ⟨burst_release (c := .button b) (by simp [Injector.Tracks, hheld]) rfl rfl fun c => ?_,
        good_press hw rfl (fun _ _ => .inr hpointer) (fun k => Or.inl)⟩
      exact tracks_drop_button w.injector b c

/-! ## Letting go of everything -/

theorem release_keys_run (keys : List Nat) (result : Except InputError Unit) (w : World F) :
    ∃ result' posts', release_keys sink keys result w = .ok result' { w with posts := posts' } ∧
      ∀ noted : Control → Prop, (∀ k ∈ keys, noted (.key (UInt16.ofNat k))) →
        (keys.Pairwise fun a b => UInt16.ofNat a ≠ UInt16.ofNat b) →
        Releases ⟨noted, controlTrace w.posts⟩
          ⟨fun c => noted c ∧ ∀ k ∈ keys, c ≠ .key (UInt16.ofNat k), controlTrace posts'⟩ := by
  induction keys generalizing result w with
  | nil =>
    refine ⟨result, w.posts, rfl, fun noted _ _ => ?_⟩
    simp
    exact Releases.done _
  | cons k keys ih =>
    obtain ⟨result', posts', hrun, hreleases⟩ := ih (result_and result (sink w.posts.length))
      { w with posts := w.posts ++
        [(.Key (UInt16.ofNat k) false false Modifiers.none, sink w.posts.length)] }
    refine ⟨result', posts', hrun, fun noted hnoted hdistinct => ?_⟩
    obtain ⟨hk, hrest⟩ := List.pairwise_cons.mp hdistinct
    refine Releases.more (.key (UInt16.ofNat k)) (sink w.posts.length).isOk
      (hnoted k List.mem_cons_self) ?_
    have hmore := hreleases (fun c => noted c ∧ c ≠ .key (UInt16.ofNat k)) ?_ hrest
    · have hstart : controlTrace (w.posts ++
          [(.Key (UInt16.ofNat k) false false Modifiers.none, sink w.posts.length)]) =
          controlTrace w.posts ++ [⟨.key (UInt16.ofNat k), false, (sink w.posts.length).isOk⟩] := by
        rw [controlTrace_append]
        rfl
      have hend : (⟨fun c => noted c ∧ ∀ k' ∈ k :: keys, c ≠ .key (UInt16.ofNat k'),
          controlTrace posts'⟩ : Tracker Control) =
          ⟨fun c => (noted c ∧ c ≠ .key (UInt16.ofNat k)) ∧
            ∀ k' ∈ keys, c ≠ .key (UInt16.ofNat k'), controlTrace posts'⟩ := by
        simp only [List.forall_mem_cons, and_assoc]
      rw [hend]
      simp only [hstart] at hmore
      exact hmore
    · intro k' hk'
      refine ⟨hnoted k' (List.mem_cons_of_mem k hk'), ?_⟩
      simp
      exact (hk k' hk').symm

theorem release_button_step (b : PointerButton) (buttons : List PointerButton)
    (result : Except InputError Unit) (hw : w.Good) :
    ∃ result' w', release_buttons sink (b :: buttons) result w =
        release_buttons sink buttons result' w' ∧ Releases w.tracker w'.tracker ∧
      w'.injector = { w.injector with buttons := Function.update w.injector.buttons b none } := by
  let dropped : Injector F :=
    { w.injector with buttons := Function.update w.injector.buttons b none }
  have hread : (injector : InjectM F (Injector F)) w = .ok w.injector w := rfl
  have hdrop : (update fun i => { i with buttons := Function.update i.buttons b none }) w =
      .ok () ⟨dropped, w.posts⟩ := rfl
  cases hheld : w.injector.buttons b with
  | none =>
    refine ⟨result, ⟨dropped, w.posts⟩, ?_, ?_, rfl⟩
    · rw [release_buttons, run_bind_ok hread, run_bind_ok hdrop, hheld]
    · have hsame : World.tracker ⟨dropped, w.posts⟩ = w.tracker := by
        refine tracker_ext (fun c => ?_) rfl
        refine (tracks_drop_button w.injector b c).trans ⟨And.left, fun hc => ⟨hc, ?_⟩⟩
        rintro rfl
        simp [World.tracker, Injector.Tracks, hheld] at hc
      rw [hsame]
      exact Releases.done _
  | some clicks =>
    obtain ⟨at_, hat⟩ := Option.isSome_iff_exists.mp (hw.pointer b (by simp [hheld]))
    let event : SinkEvent F := .PointerButton at_ b false clicks Modifiers.none
    refine ⟨result_and result (sink w.posts.length),
      ⟨dropped, w.posts ++ [(event, sink w.posts.length)]⟩, ?_, ?_, rfl⟩
    · have hpost : try_post sink event ⟨dropped, w.posts⟩ =
          .ok (sink w.posts.length) ⟨dropped, w.posts ++ [(event, sink w.posts.length)]⟩ := rfl
      rw [release_buttons, run_bind_ok hread, run_bind_ok hdrop, hheld, hat]
      exact run_bind_ok hpost
    · refine Releases.more (.button b) (sink w.posts.length).isOk
        (by simp [World.tracker, Injector.Tracks, hheld]) ?_
      have hreleased : World.tracker ⟨dropped, w.posts ++ [(event, sink w.posts.length)]⟩ =
          w.tracker.release (.button b) (sink w.posts.length).isOk :=
        tracker_release rfl rfl (tracks_drop_button w.injector b)
      rw [hreleased]
      exact Releases.done _

theorem release_buttons_run (buttons : List PointerButton) (result : Except InputError Unit)
    (hw : w.Good) : ∃ result' w', release_buttons sink buttons result w = .ok result' w' ∧
      Releases w.tracker w'.tracker ∧ w'.Good ∧ w'.injector.keys = w.injector.keys ∧
      ∀ b, (w'.injector.buttons b).isSome = true →
        (w.injector.buttons b).isSome = true ∧ b ∉ buttons := by
  induction buttons generalizing result w with
  | nil => exact ⟨result, w, rfl, Releases.done _, hw, rfl, fun b hb => ⟨hb, by simp⟩⟩
  | cons b buttons ih =>
    obtain ⟨result₁, w₁, hrun₁, hreleases₁, hinjector⟩ := release_button_step sink b buttons result hw
    have hdropped : ∀ b', (w₁.injector.buttons b').isSome = true →
        (w.injector.buttons b').isSome = true ∧ b' ≠ b := by
      intro b' hb'
      rw [hinjector] at hb'
      by_cases h : b' = b
      · subst h
        simp at hb'
      · exact ⟨by simpa [h] using hb', h⟩
    have hgood₁ : w₁.Good :=
      good_press hw (by rw [hinjector]) (fun b' hb' => .inl (hdropped b' hb').1)
        (fun k hk => .inl (by rwa [hinjector] at hk))
    obtain ⟨result', w', hrun, hreleases, hgood, hkeys, hbuttons⟩ := ih result₁ hgood₁
    refine ⟨result', w', hrun₁.trans hrun, hreleases₁.trans hreleases, hgood,
      hkeys.trans (by rw [hinjector]), fun b' hb' => ?_⟩
    obtain ⟨h1, h2⟩ := hbuttons b' hb'
    obtain ⟨h3, h4⟩ := hdropped b' h1
    exact ⟨h3, by simp [h4, h2]⟩

theorem key_of_mem {m : SortedMap Nat Unit} {k : Nat} (h : k ∈ m.entries.map Prod.fst) :
    m.contains k = true := by
  obtain ⟨⟨k', u⟩, he, rfl⟩ := List.mem_map.mp h
  unfold SortedMap.contains
  rw [SortedMap.get?_eq_some_iff.mpr he]
  rfl

theorem mem_of_key {m : SortedMap Nat Unit} {k : Nat} (h : m.contains k = true) :
    k ∈ m.entries.map Prod.fst := by
  obtain ⟨u, hu⟩ := Option.isSome_iff_exists.mp h
  exact List.mem_map.mpr ⟨(k, u), SortedMap.get?_eq_some_iff.mp hu, rfl⟩

theorem contains_empty (k : Nat) : (SortedMap.empty : SortedMap Nat Unit).contains k = false := rfl

theorem keys_distinct (hw : w.Good) :
    (w.injector.keys.entries.map Prod.fst).Pairwise fun a b => UInt16.ofNat a ≠ UInt16.ofNat b := by
  have hsorted : (w.injector.keys.entries.map Prod.fst).Pairwise (· < ·) :=
    List.pairwise_map.mpr w.injector.keys.sorted
  refine hsorted.imp_of_mem ?_
  intro a b ha hb hlt heq
  have hnat := congrArg UInt16.toNat heq
  rw [UInt16.toNat_ofNat_of_lt' (hw.keys a (key_of_mem ha)),
    UInt16.toNat_ofNat_of_lt' (hw.keys b (key_of_mem hb))] at hnat
  omega

theorem tracks_key_iff (hw : w.Good) (usage : UInt16) : w.injector.Tracks (.key usage) ↔
      ∃ k ∈ w.injector.keys.entries.map Prod.fst, usage = UInt16.ofNat k := by
  change w.injector.keys.contains usage.toNat = true ↔ _
  constructor
  · intro h
    exact ⟨usage.toNat, mem_of_key h, by simp⟩
  · rintro ⟨k, hk, rfl⟩
    have hcontains := key_of_mem hk
    rwa [UInt16.toNat_ofNat_of_lt' (hw.keys k hcontains)]

theorem tracks_no_keys (hw : w.Good) (c : Control) : (w.injector.Tracks c ∧
        ∀ k ∈ w.injector.keys.entries.map Prod.fst, c ≠ .key (UInt16.ofNat k)) ↔
      Injector.Tracks { w.injector with keys := SortedMap.empty } c := by
  cases c with
  | key usage =>
    have hnone : ¬ Injector.Tracks { w.injector with keys := SortedMap.empty } (.key usage) := by
      change ¬ (SortedMap.empty : SortedMap Nat Unit).contains usage.toNat = true
      simp [contains_empty]
    refine iff_of_false ?_ hnone
    rintro ⟨htracks, hall⟩
    obtain ⟨k, hk, rfl⟩ := (tracks_key_iff hw usage).mp htracks
    exact hall k hk rfl
  | button b =>
    refine ⟨And.left, fun h => ⟨h, ?_⟩⟩
    intro k _ heq
    cases heq

theorem release_all_run (hw : w.Good) :
    ∃ result w', release_all sink w = .ok result w' ∧ Releases w.tracker w'.tracker ∧ w'.Good ∧
      ∀ c, ¬ w'.injector.Tracks c := by
  let emptied : Injector F := { w.injector with keys := SortedMap.empty }
  -- the keys first, from a state that has already forgotten them
  obtain ⟨result₁, posts₁, hrun₁, hreleases₁⟩ := release_keys_run sink
    (w.injector.keys.entries.map Prod.fst) (.ok ()) { w with injector := emptied }
  let w₁ : World F := ⟨{ emptied with modifiers := Modifiers.none }, posts₁⟩
  have hgood₁ : w₁.Good :=
    ⟨hw.pointer, fun k hk => absurd hk (by simp [w₁, emptied, contains_empty])⟩
  have hkeys := hreleases₁ w.injector.Tracks
    (fun k hk => (tracks_key_iff hw _).mpr ⟨k, hk, rfl⟩) (keys_distinct hw)
  have htracker : (⟨fun c => w.injector.Tracks c ∧
      ∀ k ∈ w.injector.keys.entries.map Prod.fst, c ≠ .key (UInt16.ofNat k),
      controlTrace posts₁⟩ : Tracker Control) = w₁.tracker := by
    refine tracker_ext (fun c => (tracks_no_keys hw c).trans ?_) rfl
    cases c <;> exact Iff.rfl
  rw [htracker] at hkeys
  -- then the buttons
  obtain ⟨result₂, w₂, hrun₂, hreleases₂, hgood₂, hkeys₂, hbuttons₂⟩ :=
    release_buttons_run sink BUTTONS result₁ hgood₁
  refine ⟨result₂, w₂, ?_, hkeys.trans hreleases₂, hgood₂, ?_⟩
  · change EStateM.bind (release_keys sink _ (.ok ())) _ { w with injector := emptied } = _
    unfold EStateM.bind
    rw [hrun₁]
    exact hrun₂
  · intro c htracks
    cases c with
    | key usage =>
      change w₂.injector.keys.contains usage.toNat = true at htracks
      rw [hkeys₂] at htracks
      simp [w₁, emptied, contains_empty] at htracks
    | button b =>
      have hnot := (hbuttons₂ b htracks).2
      cases b <;> simp [BUTTONS] at hnot

theorem set_holder_run (hw : w.Good) (holder : Option UInt64) (hne : w.injector.holder ≠ holder) :
    Releases w.tracker (final (set_holder num sink holder) w).tracker ∧
      (final (set_holder num sink holder) w).Good ∧
      ∀ c, ¬ (final (set_holder num sink holder) w).injector.Tracks c := by
  obtain ⟨result, w', hrun, hreleases, hgood, hnone⟩ := release_all_run sink hw
  let changed : World F := { w' with injector := { w'.injector with
    holder := holder
    last_press := none
    scroll_remainder := (num.of_int 0, num.of_int 0) } }
  have hfinal : final (set_holder num sink holder) w = changed := by
    unfold set_holder
    rw [final_injector, if_neg hne, final_bind_ok hrun, final_update]
    cases result <;> rfl
  rw [hfinal]
  have htracks : ∀ c, changed.injector.Tracks c ↔ w'.injector.Tracks c := by
    intro c
    cases c <;> exact Iff.rfl
  refine ⟨?_, ⟨hgood.pointer, hgood.keys⟩, fun c hc => hnone c ((htracks c).mp hc)⟩
  exact hreleases

theorem bursts_set_holder (holder : Option UInt64) : Bursts (set_holder num sink holder) := by
  intro w hw
  by_cases h : w.injector.holder = holder
  · have hfinal : final (set_holder num sink holder) w = w := by
      unfold set_holder
      rw [final_injector, if_pos h]
      rfl
    rw [hfinal]
    exact ⟨Burst.releases (Releases.done _), hw⟩
  · obtain ⟨h1, h2, -⟩ := set_holder_run num sink hw holder h
    exact ⟨Burst.releases h1, h2⟩

theorem bursts_inject (device : UInt64) (event : InputEvent) (now_ms : UInt64) :
    Bursts (inject num sink device event now_ms) := by
  apply Keeps.injector.then
  intro i
  split
  · exact (Keeps.throw _).bursts
  · cases event with
    | PointerMove surface x y =>
      exact ((keeps_locate num surface x y).bind fun at_ => keeps_move_to num sink at_).bursts
    | PointerButton surface x y b pressed =>
      refine (keeps_locate num surface x y).then fun at_ w hw => ?_
      have hmove := keeps_move_to num sink at_ w hw
      cases hr : move_to num sink at_ w with
      | ok u w' =>
        rw [final_bind_ok hr]
        simp only [final, hr] at hmove
        rw [← hmove.1]
        exact bursts_button num sink at_ b pressed now_ms hmove.2 (move_to_pointer num sink hr)
      | error e w' =>
        rw [final_bind_error hr]
        simp only [final, hr] at hmove
        rw [hmove.1]
        exact ⟨Burst.releases (Releases.done _), hmove.2⟩
    | Scroll surface x y dx dy =>
      exact ((keeps_locate num surface x y).bind fun at_ =>
        (keeps_move_to num sink at_).bind fun _ => keeps_scroll num sink surface at_ dx dy).bursts
    | Key k => exact bursts_key sink k
    | Text surface text =>
      simp only
      split
      · exact (Keeps.throw _).bursts
      · exact (keeps_post_chunks sink _).bursts

/-! ## Whole sessions -/

/-- What the owner of an injector does with it. -/
inductive Call (F : Type)
  | inject (device : UInt64) (event : InputEvent) (now_ms : UInt64)
  | set_layout (layout : DisplayLayout F)
  | set_holder (holder : Option UInt64)

def Call.run : Call F → World F → World F
  | .inject device event now_ms =>
    final (multiplex_screen_input.inject num sink device event now_ms)
  | .set_layout layout => final (multiplex_screen_input.set_layout layout)
  | .set_holder holder => final (multiplex_screen_input.set_holder num sink holder)

def World.after (layout : DisplayLayout F) (calls : List (Call F)) : World F :=
  calls.foldl (fun w call => call.run num sink w) ⟨Injector.new num layout, []⟩

theorem after_append (layout : DisplayLayout F) (calls : List (Call F)) (call : Call F) :
    World.after num sink layout (calls ++ [call]) =
      call.run num sink (World.after num sink layout calls) := by
  unfold World.after
  rw [List.foldl_append]
  rfl

theorem bursts_call (call : Call F) (hw : w.Good) :
    Burst w.tracker (call.run num sink w).tracker ∧ (call.run num sink w).Good := by
  cases call with
  | inject device event now_ms => exact bursts_inject num sink device event now_ms w hw
  | set_layout layout => exact (keeps_set_layout layout).bursts w hw
  | set_holder holder => exact bursts_set_holder num sink holder w hw

theorem after_good (layout : DisplayLayout F) (calls : List (Call F)) :
    (World.after num sink layout calls).Good ∧ Sound (World.after num sink layout calls).tracker := by
  induction calls using List.reverseRecOn with
  | nil =>
    refine ⟨⟨?_, ?_⟩, ⟨?_, ?_⟩⟩
    · intro b hb
      cases hb
    · intro k hk
      cases hk
    · intro c hc
      cases c <;> cases hc
    · intro before p after h
      cases before <;> cases h
  | append_singleton calls call ih =>
    rw [after_append]
    obtain ⟨hburst, hgood⟩ := bursts_call num sink call ih.1
    exact ⟨hgood, ih.2.burst hburst⟩

/-- Whichever posts fail, what is tracked is down, and no release comes without a press. -/
theorem what_is_tracked_is_down (layout : DisplayLayout F) (calls : List (Call F)) :
    let w := World.after num sink layout calls
    (∀ c, w.injector.Tracks c → w.Down c) ∧ Balanced (controlTrace w.posts) :=
  have h := (after_good num sink layout calls).2
  ⟨h.noted_down, h.balanced⟩

def World.LostRelease (w : World F) : Prop := Presses.LostRelease (controlTrace w.posts)

theorem lost_stays (call : Call F) (hw : w.Good) (h : w.LostRelease) :
    (call.run num sink w).LostRelease :=
  lost_in_burst (bursts_call num sink call hw).1 h

/-- Everything down is tracked after each call exactly when no release was lost. -/
theorem complete_iff (layout : DisplayLayout F) (calls : List (Call F)) :
    (∀ before after, calls = before ++ after →
        Complete (World.after num sink layout before).tracker) ↔
      ¬ (World.after num sink layout calls).LostRelease := by
  induction calls using List.reverseRecOn with
  | nil =>
    refine iff_of_true ?_ ?_
    · intro before after h
      obtain ⟨rfl, rfl⟩ := List.append_eq_nil_iff.mp h.symm
      intro c hc
      cases hc
    · rintro ⟨p, hp, -⟩
      cases hp
  | append_singleton calls call ih =>
    obtain ⟨hgood, hsound⟩ := after_good num sink layout calls
    have hburst := (bursts_call num sink call hgood).1
    constructor
    · intro h
      have hbefore := ih.mp fun before after heq =>
        h before (after ++ [call]) (by rw [heq, List.append_assoc])
      have hcomplete := h calls [call] rfl
      have hlast := h (calls ++ [call]) [] (by simp)
      rw [after_append] at hlast ⊢
      exact (complete_burst_iff hsound hcomplete hbefore hburst).mp hlast
    · intro hlost before after heq
      rw [after_append] at hlost
      have hbefore : ¬ (World.after num sink layout calls).LostRelease :=
        fun h => hlost (lost_stays num sink call hgood h)
      have hall := ih.mpr hbefore
      rcases List.eq_nil_or_concat after with rfl | ⟨after', x, rfl⟩
      · rw [List.append_nil] at heq
        rw [← heq, after_append]
        exact (complete_burst_iff hsound (hall calls [] (by simp)) hbefore hburst).mpr hlost
      · rw [List.concat_eq_append, ← List.append_assoc] at heq
        obtain ⟨rfl, -⟩ := List.append_inj' heq rfl
        exact hall before after' rfl

/-- Nothing stays pressed across a writer change: after every call everything that is down is still
tracked, after a change of holder during which no post failed nothing is down, and no release is
posted that no press came before. -/
structure NothingStaysPressed (layout : DisplayLayout F) (calls : List (Call F)) : Prop where
  tracked : ∀ before after, calls = before ++ after → ∀ c,
    (World.after num sink layout before).Down c →
      (World.after num sink layout before).injector.Tracks c
  released : ∀ before holder after, calls = before ++ .set_holder holder :: after →
    (World.after num sink layout before).injector.holder ≠ holder →
    (∀ p ∈ (World.after num sink layout (before ++ [.set_holder holder])).posts.drop
      (World.after num sink layout before).posts.length, p.2.isOk = true) →
    ∀ c, ¬ (World.after num sink layout (before ++ [.set_holder holder])).Down c
  balanced : Balanced (controlTrace (World.after num sink layout calls).posts)

/-- Nothing stays pressed exactly when no post of a release failed. -/
theorem nothing_stays_pressed_iff (layout : DisplayLayout F) (calls : List (Call F)) :
    NothingStaysPressed num sink layout calls ↔
      ¬ (World.after num sink layout calls).LostRelease := by
  rw [← complete_iff]
  constructor
  · exact fun h => h.tracked
  · intro h
    refine ⟨h, ?_, (after_good num sink layout calls).2.balanced⟩
    intro before holder after heq hne _ c hdown
    have hsplit : calls = (before ++ [.set_holder holder]) ++ after := by
      rw [heq, List.append_assoc]
      rfl
    have htracks := h _ after hsplit c hdown
    rw [after_append] at htracks
    exact (set_holder_run num sink (after_good num sink layout before).1 holder hne).2.2 c htracks

/-- Whole numbers, for a session that never looks at a place. -/
def wholeNumbers : Numbers Int where
  of_nat := Int.ofNat
  of_int := id
  add := (· + ·)
  sub := (· - ·)
  mul := (· * ·)
  trunc := id
  hypot := fun x y => x.natAbs + y.natAbs
  eq := fun x y => decide (x = y)
  le := fun x y => decide (x ≤ y)
  to_i32 := Int32.ofInt

/-- A key is pressed and released, and the post of the release fails; then control goes to nobody. -/
def stuckKey : List (Call Int) :=
  [.set_holder (some 1), .inject 1 (.Key ⟨4, Modifiers.none, true⟩) 0,
    .inject 1 (.Key ⟨4, Modifiers.none, false⟩) 10, .set_holder none]

def secondPostFails (n : Nat) : Except InputError Unit :=
  if n = 1 then .error .Unavailable else .ok ()

theorem a_lost_release_leaves_a_key_pressed :
    ¬ NothingStaysPressed wholeNumbers secondPostFails [] stuckKey := by
  intro h
  have hreleased := h.released (stuckKey.take 3) none [] rfl (by decide) (by decide +kernel)
    (.key 4)
  exact hreleased (by unfold World.Down; decide +kernel)

end multiplex_screen_input
