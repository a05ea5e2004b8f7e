-- Along the runs whose events are welcome, one device drives the computer at
-- most and the sharing indicator tells who watches and who drives. Two devices
-- that both ask are both told that they drive.
import Multiplex.Desktop.ScreenSharing

open multiplex_domain.controller_devices (ControllerDeviceId)
open multiplex_screen_codec (Size)
open multiplex_screen_protocol multiplex_screen_session multiplex_screen_host

namespace multiplex_desktop.screen_sharing

namespace Desktop

section
variable {d d' : Desktop} {i : Nat} {screen screen' : Screen} {event : ScreenHostEvent}

/-! ## One session among the others -/

def Others (d : Desktop) (i : Nat) (p : Screen → Prop) : Prop :=
  ∃ j other, j ≠ i ∧ d.screens[j]? = some other ∧ p other

theorem others_iff (d : Desktop) (i : Nat) (p : Screen → Bool) :
    d.others i p = true ↔ d.Others i fun other => p other = true := by
  unfold others Others
  rw [List.any_eq_true]
  constructor
  · rintro ⟨j, -, hj⟩
    rw [Bool.and_eq_true, decide_eq_true_eq, Option.any_eq_true] at hj
    obtain ⟨hne, other, hother, hp⟩ := hj
    exact ⟨j, other, hne, hother, hp⟩
  · rintro ⟨j, other, hne, hother, hp⟩
    refine ⟨j, ?_, by simp [hne, hother, hp]⟩
    rw [List.mem_range]
    exact (List.getElem?_eq_some_iff.mp hother).1

theorem exists_screen_iff (hscreen : d.screens[i]? = some screen) (p : Screen → Prop) :
    (∃ s ∈ d.screens, p s) ↔ p screen ∨ d.Others i p := by
  constructor
  · rintro ⟨s, hs, hp⟩
    obtain ⟨j, hj⟩ := List.mem_iff_getElem?.mp hs
    by_cases hji : j = i
    · subst hji
      rw [hscreen] at hj
      cases hj
      exact .inl hp
    · exact .inr ⟨j, s, hji, hj, hp⟩
  · rintro (hp | ⟨j, other, -, hother, hp⟩)
    · exact ⟨screen, List.mem_of_getElem? hscreen, hp⟩
    · exact ⟨other, List.mem_of_getElem? hother, hp⟩

/-! ## What holds along the runs -/

/-- The indicator names what the sessions asked for, and the answers on their way say it. -/
structure Sound (d : Desktop) : Prop where
  told : ∀ screen ∈ d.screens, Told screen.inner
  fresh : ∀ {i : Nat} {screen : Screen}, d.screens[i]? = some screen →
    screen.inner.session.state = .AwaitingHello →
    screen.inner.session.control = .Nobody ∧ screen.asked = .Nobody ∧ ∀ c ∈ d.calls, c.screen ≠ i
  settled : ∀ {i : Nat} {screen : Screen}, d.screens[i]? = some screen →
    screen.inner.is_open = true → (∀ c ∈ d.calls, c.screen ≠ i) →
    screen.inner.session.control = screen.asked
  waiting : ∀ c ∈ d.calls, c.screen < d.screens.length
  one : ∀ {i j : Nat} {screen other : Screen}, d.screens[i]? = some screen →
    d.screens[j]? = some other → screen.wants = true → other.wants = true → i = j
  watching : ∀ device, (∃ watcher ∈ d.sharing.watchers, watcher.device_id = device) ↔
    ∃ screen ∈ d.screens, screen.device_id = device ∧ screen.inner.is_open = true
  driving : ∀ watcher ∈ d.sharing.watchers, watcher.controlling = true ↔
    ∃ screen ∈ d.screens, screen.device_id = watcher.device_id ∧ screen.wants = true

/-- One session and its answers change, and the indicator with them. -/
structure Moves (d d' : Desktop) (i : Nat) (screen screen' : Screen) : Prop where
  was : d.screens[i]? = some screen
  screens : d'.screens = d.screens.set i screen'
  device : screen'.device_id = screen.device_id
  added : ∀ c ∈ d'.calls, c ∈ d.calls ∨ c.screen = i
  kept : ∀ c ∈ d.calls, c.screen ≠ i → c ∈ d'.calls

section
variable (h : Moves d d' i screen screen')
include h

theorem Moves.now : d'.screens[i]? = some screen' := by
  have hlt := (List.getElem?_eq_some_iff.mp h.was).1
  rw [h.screens, List.getElem?_set_self hlt]

theorem Moves.other {j : Nat} (hj : j ≠ i) : d'.screens[j]? = d.screens[j]? := by
  rw [h.screens, List.getElem?_set_ne (Ne.symm hj)]

theorem Moves.others (p : Screen → Prop) : d'.Others i p ↔ d.Others i p := by
  constructor
  · rintro ⟨j, other, hj, hother, hp⟩
    exact ⟨j, other, hj, (h.other hj).symm.trans hother, hp⟩
  · rintro ⟨j, other, hj, hother, hp⟩
    exact ⟨j, other, hj, (h.other hj).trans hother, hp⟩

theorem Moves.exists_iff (p : Screen → Prop) : (∃ s ∈ d'.screens, p s) ↔ p screen' ∨ d.Others i p :=
  (exists_screen_iff h.now p).trans (or_congr_right (h.others p))

end

theorem sound_of_moves (hsound : Sound d) (h : Moves d d' i screen screen')
    (htold : Told screen'.inner) (hfresh : screen'.inner.session.state = .AwaitingHello →
      screen'.inner.session.control = .Nobody ∧ screen'.asked = .Nobody ∧ ∀ c ∈ d'.calls, c.screen ≠ i)
    (hsettled : screen'.inner.is_open = true → (∀ c ∈ d'.calls, c.screen ≠ i) →
      screen'.inner.session.control = screen'.asked)
    (hone : screen'.wants = true → screen.wants = true ∨ ¬d.Others i fun other => other.wants = true)
    (hwatching : ∀ device, (∃ watcher ∈ d'.sharing.watchers, watcher.device_id = device) ↔
      (screen'.device_id = device ∧ screen'.inner.is_open = true) ∨
        d.Others i fun other => other.device_id = device ∧ other.inner.is_open = true)
    (hdriving : ∀ watcher ∈ d'.sharing.watchers, watcher.controlling = true ↔
      (screen'.device_id = watcher.device_id ∧ screen'.wants = true) ∨
        d.Others i fun other => other.device_id = watcher.device_id ∧ other.wants = true) :
    Sound d' := by
  have halone : ∀ {j other}, j ≠ i → d'.screens[j]? = some other → other.wants = true →
      screen'.wants = true → False := by
    intro j other hj hother hwants hwants'
    rw [h.other hj] at hother
    rcases hone hwants' with hwanted | hnone
    · exact hj (hsound.one hother h.was hwants hwanted)
    · exact hnone ⟨j, other, hj, hother, hwants⟩
  have hcalls : ∀ {j}, j ≠ i → (∀ c ∈ d'.calls, c.screen ≠ j) → ∀ c ∈ d.calls, c.screen ≠ j := by
    intro j hj hnone c hc hcj
    exact hnone c (h.kept c hc (hcj ▸ hj)) hcj
  constructor
  · intro s hs
    obtain ⟨j, hs⟩ := List.mem_iff_getElem?.mp hs
    by_cases hj : j = i
    · subst hj
      rw [h.now] at hs
      cases hs
      exact htold
    · rw [h.other hj] at hs
      exact hsound.told s (List.mem_of_getElem? hs)
  · intro j s hs hawaits
    by_cases hj : j = i
    · subst hj
      rw [h.now] at hs
      cases hs
      exact hfresh hawaits
    · rw [h.other hj] at hs
      obtain ⟨hcontrol, hasked, hnone⟩ := hsound.fresh hs hawaits
      refine ⟨hcontrol, hasked, fun c hc hcj => ?_⟩
      rcases h.added c hc with hold | hi
      · exact hnone c hold hcj
      · exact hj (hcj.symm.trans hi)
  · intro j s hs hopen hnone
    by_cases hj : j = i
    · subst hj
      rw [h.now] at hs
      cases hs
      exact hsettled hopen hnone
    · rw [h.other hj] at hs
      exact hsound.settled hs hopen (hcalls hj hnone)
  · intro c hc
    rw [h.screens, List.length_set]
    rcases h.added c hc with hold | hi
    · exact hsound.waiting c hold
    · rw [hi]
      exact (List.getElem?_eq_some_iff.mp h.was).1
  · intro j k s other hs hother hwants hwants'
    by_cases hj : j = i
    · subst hj
      rw [h.now] at hs
      cases hs
      by_contra hk
      exact halone (Ne.symm hk) hother hwants' hwants
    · by_cases hk : k = i
      · subst hk
        rw [h.now] at hother
        cases hother
        exact (halone hj hs hwants hwants').elim
      · rw [h.other hj] at hs
        rw [h.other hk] at hother
        exact hsound.one hs hother hwants hwants'
  · intro device
    rw [hwatching, h.exists_iff]
  · intro watcher hwatcher
    rw [hdriving watcher hwatcher, h.exists_iff]

theorem sound_of_quiet (hsound : Sound d) (h : Moves d d' i screen screen')
    (hsharing : d'.sharing = d.sharing) (htold : Told screen'.inner)
    (hfresh : screen'.inner.session.state = .AwaitingHello →
      screen'.inner.session.control = .Nobody ∧ screen'.asked = .Nobody ∧ ∀ c ∈ d'.calls, c.screen ≠ i)
    (hsettled : screen'.inner.is_open = true → (∀ c ∈ d'.calls, c.screen ≠ i) →
      screen'.inner.session.control = screen'.asked)
    (hopen : screen'.inner.is_open = screen.inner.is_open) (hasked : screen'.asked = screen.asked) :
    Sound d' := by
  have hwants : screen'.wants = screen.wants := by simp [Screen.wants, hopen, hasked]
  refine sound_of_moves hsound h htold hfresh hsettled (fun hw => .inl (hwants ▸ hw)) ?_ ?_
  · intro device
    rw [hsharing, hsound.watching, exists_screen_iff h.was, h.device, hopen]
  · intro watcher hwatcher
    rw [hsharing] at hwatcher
    rw [hsound.driving watcher hwatcher, exists_screen_iff h.was, h.device, hwants]

/-! ## One step -/

theorem hear_inputs {events : List ScreenHostEvent} (hinput : ∀ e ∈ events, ∃ input, e = .Input input)
    (d : Desktop) : events.foldl (hear i) d = d := by
  induction events with
  | nil => rfl
  | cons e events ih =>
    obtain ⟨input, rfl⟩ := hinput e List.mem_cons_self
    have hsame : d.hear i (.Input input) = d := by
      unfold hear
      split <;> rfl
    rw [List.foldl_cons, hsame]
    exact ih fun e he => hinput e (List.mem_cons_of_mem _ he)

theorem moves_set (hscreen : d.screens[i]? = some screen) (inner : Inner) (asked : ControlHolder)
    (sharing : ScreenSharing) {calls : List Call} (hadded : ∀ c ∈ calls, c ∈ d.calls ∨ c.screen = i)
    (hkept : ∀ c ∈ d.calls, c.screen ≠ i → c ∈ calls) :
    Moves d ⟨sharing, d.screens.set i ⟨screen.device_id, inner, asked⟩, calls⟩ i screen
      ⟨screen.device_id, inner, asked⟩ :=
  ⟨hscreen, rfl, rfl, hadded, hkept⟩

theorem not_awaiting (hopen : screen.inner.is_open = true) :
    screen.inner.session.state ≠ .AwaitingHello := by
  intro hawaits
  simp [Inner.is_open, HostSession.is_open, hawaits] at hopen

theorem opened_sound (hsound : Sound d) (hscreen : d.screens[i]? = some screen) {inner : Inner}
    (htold : Told inner) (hawaited : screen.inner.session.state = .AwaitingHello)
    (hopen : inner.is_open = true) (hcontrol : inner.session.control = screen.inner.session.control)
    (hwelcome : ¬d.Others i fun other => other.device_id = screen.device_id ∧ other.wants = true) :
    Sound ⟨d.sharing.add_watcher ⟨screen.device_id, "", false⟩,
      d.screens.set i ⟨screen.device_id, inner, screen.asked⟩, d.calls⟩ := by
  obtain ⟨hnobody, hasked, -⟩ := hsound.fresh hscreen hawaited
  have hclosed : screen.inner.is_open = false := by
    simp [Inner.is_open, HostSession.is_open, hawaited]
  have hwants : (⟨screen.device_id, inner, screen.asked⟩ : Screen).wants = false := by
    simp [Screen.wants, hasked]
  have hwanted : screen.wants = false := by simp [Screen.wants, hclosed]
  refine sound_of_moves hsound
    (moves_set hscreen inner screen.asked _ (fun c hc => .inl hc) fun c hc _ => hc)
    htold (fun hawaits => absurd hawaits (not_awaiting hopen))
    (fun _ _ => by rw [hcontrol, hnobody, hasked]) (fun hw => by simp [hwants] at hw) ?_ ?_
  · intro device
    have hold := hsound.watching device
    simp [exists_screen_iff hscreen, hclosed] at hold
    by_cases hsame : screen.device_id = device
    · simp [ScreenSharing.add_watcher, hopen, hsame]
    · simp [hsame, ← hold]
      constructor
      · rintro ⟨watcher, hwatcher, rfl⟩
        simp [ScreenSharing.add_watcher] at hwatcher
        rcases hwatcher with ⟨hwatcher, -⟩ | rfl
        · exact ⟨watcher, hwatcher, rfl⟩
        · exact absurd rfl hsame
      · rintro ⟨watcher, hwatcher, rfl⟩
        refine ⟨watcher, List.mem_append_left _ ?_, rfl⟩
        simp [hwatcher, Ne.symm hsame]
  · intro watcher hwatcher
    simp [ScreenSharing.add_watcher] at hwatcher
    rcases hwatcher with ⟨hwatcher, -⟩ | rfl
    · rw [hsound.driving watcher hwatcher, exists_screen_iff hscreen, hwants, hwanted]
    · simpa [hwants] using hwelcome

theorem asked_sound (hsound : Sound d) (hscreen : d.screens[i]? = some screen) {inner : Inner}
    {asked : ControlHolder} (htold : Told inner) (hopen : screen.inner.is_open = true)
    (hopen' : inner.is_open = true) (hwelcome : ¬d.Others i fun other => other.wants = true)
    {controlling : Bool} (hasked : controlling = true ↔ asked = .You) :
    Sound ⟨d.sharing.set_controlling screen.device_id controlling,
      d.screens.set i ⟨screen.device_id, inner, asked⟩, d.calls ++ [⟨i, asked⟩]⟩ := by
  have hwants : (⟨screen.device_id, inner, asked⟩ : Screen).wants = controlling := by
    rw [Bool.eq_iff_iff, hasked]
    simp [Screen.wants, hopen']
  refine sound_of_moves hsound
    (moves_set hscreen inner asked _ ?_ fun c hc _ => List.mem_append_left _ hc)
    htold (fun hawaits => absurd hawaits (not_awaiting hopen'))
    (fun _ hnone => absurd rfl (hnone ⟨i, asked⟩ (by simp))) (fun _ => .inr hwelcome) ?_ ?_
  · intro c hc
    rw [List.mem_append, List.mem_singleton] at hc
    exact hc.imp_right fun h => by rw [h]
  · intro device
    have hold := hsound.watching device
    rw [exists_screen_iff hscreen, hopen] at hold
    rw [hopen', ← hold]
    simp [ScreenSharing.set_controlling]
  · intro watcher hwatcher
    simp [ScreenSharing.set_controlling] at hwatcher
    obtain ⟨watcher, -, rfl⟩ := hwatcher
    have hnone : ¬d.Others i fun other => other.device_id = watcher.device_id ∧ other.wants = true := by
      rintro ⟨j, other, hj, hother, -, hw⟩
      exact hwelcome ⟨j, other, hj, hother, hw⟩
    simp only [hnone, hwants, or_false, Bool.and_eq_true, decide_eq_true_eq]
    exact and_congr_left fun _ => eq_comm

theorem closed_sound (hsound : Sound d) (hscreen : d.screens[i]? = some screen) {inner : Inner}
    (htold : Told inner) (hclosed : inner.session.state = .Closed)
    (hwelcome : ¬d.Others i fun other =>
      other.device_id = screen.device_id ∧ other.inner.is_open = true) :
    Sound ⟨d.sharing.remove_watcher screen.device_id,
      d.screens.set i ⟨screen.device_id, inner, screen.asked⟩, d.calls⟩ := by
  have hopen : inner.is_open = false := by
    simp [Inner.is_open, HostSession.is_open, hclosed]
  have hwants : (⟨screen.device_id, inner, screen.asked⟩ : Screen).wants = false := by
    simp [Screen.wants, hopen]
  refine sound_of_moves hsound
    (moves_set hscreen inner screen.asked _ (fun c hc => .inl hc) fun c hc _ => hc)
    htold (fun hawaits => by simp [hclosed] at hawaits) (fun h => by simp [hopen] at h)
    (fun hw => by simp [hwants] at hw) ?_ ?_
  · intro device
    have hold := hsound.watching device
    rw [exists_screen_iff hscreen] at hold
    simp [ScreenSharing.remove_watcher, hopen]
    by_cases hsame : screen.device_id = device
    · subst hsame
      refine iff_of_false ?_ hwelcome
      rintro ⟨watcher, ⟨-, hne⟩, heq⟩
      exact hne heq
    · simp [hsame] at hold
      rw [← hold]
      constructor
      · rintro ⟨watcher, ⟨hwatcher, -⟩, rfl⟩
        exact ⟨watcher, hwatcher, rfl⟩
      · rintro ⟨watcher, hwatcher, rfl⟩
        exact ⟨watcher, ⟨hwatcher, Ne.symm hsame⟩, rfl⟩
  · intro watcher hwatcher
    simp [ScreenSharing.remove_watcher] at hwatcher
    rw [hsound.driving watcher hwatcher.1, exists_screen_iff hscreen, hwants]
    simp [Ne.symm hwatcher.2]

theorem not_others (p : Screen → Bool) :
    (!d.others i p) = true ↔ ¬d.Others i fun other => p other = true := by
  rw [Bool.not_eq_true', ← Bool.not_eq_true, others_iff]

theorem act_sound (hsound : Sound d) (hscreen : d.screens[i]? = some screen)
    (f : Inner → Inner × List ScreenHostEvent)
    (hdoes : Does screen.inner (f screen.inner).1 (f screen.inner).2)
    (htold : Told screen.inner → Told (f screen.inner).1)
    (hwelcome : (f screen.inner).2.all (d.welcomes i screen) = true) : Sound (d.act i f) := by
  have hlt := (List.getElem?_eq_some_iff.mp hscreen).1
  replace htold := htold (hsound.told screen (List.mem_of_getElem? hscreen))
  simp only [act, hscreen]
  generalize f screen.inner = r at *
  obtain ⟨inner, events⟩ := r
  simp only at hdoes htold hwelcome ⊢
  cases hdoes with
  | stays state control input =>
    rw [hear_inputs input]
    have hopen : inner.is_open = screen.inner.is_open := by
      simp [Inner.is_open, HostSession.is_open, state]
    refine sound_of_quiet hsound
      (moves_set hscreen inner screen.asked _ (fun c hc => .inl hc) fun c hc _ => hc) rfl htold
      (fun hawaits => ?_) (fun hopen' hnone => ?_) hopen rfl
    · rw [control]
      exact hsound.fresh hscreen (state.symm.trans hawaits)
    · rw [control]
      exact hsound.settled hscreen (hopen.symm.trans hopen') hnone
  | opens device awaited is_open control =>
    simp only [List.all_cons, List.all_nil, Bool.and_true, welcomes, not_others, Bool.and_eq_true,
      decide_eq_true_eq] at hwelcome
    have hsound' := opened_sound hsound hscreen htold awaited is_open control hwelcome
    simpa [hear, hlt, ScreenSharing.observe] using hsound'
  | asks is_open state control =>
    simp only [List.all_cons, List.all_nil, Bool.and_true, welcomes, not_others] at hwelcome
    have hopen : inner.is_open = true := by
      simpa [Inner.is_open, HostSession.is_open, state] using is_open
    have hsound' := asked_sound hsound hscreen htold is_open hopen hwelcome
      (show true = true ↔ ControlHolder.You = .You by simp)
    simpa [hear, hlt, ScreenSharing.observe] using hsound'
  | gives is_open state control =>
    simp only [List.all_cons, List.all_nil, Bool.and_true, welcomes, not_others] at hwelcome
    have hopen : inner.is_open = true := by
      simpa [Inner.is_open, HostSession.is_open, state] using is_open
    have hsound' := asked_sound hsound hscreen htold is_open hopen hwelcome
      (show false = true ↔ ControlHolder.Nobody = .You by simp)
    simpa [hear, hlt, ScreenSharing.observe] using hsound'
  | ends reason closed =>
    simp only [List.all_cons, List.all_nil, Bool.and_true, welcomes, not_others, Bool.and_eq_true,
      decide_eq_true_eq] at hwelcome
    have hsound' := closed_sound hsound hscreen htold closed hwelcome
    simpa [hear, hlt, ScreenSharing.observe] using hsound'

theorem connect_sound (hsound : Sound d) (device_id : ControllerDeviceId)
    (displays : List SurfaceInfo) : Sound (d.connect device_id displays) := by
  unfold connect
  split
  · exact hsound
  have hclosed : (Inner.new displays .default).is_open = false := rfl
  have hscreens : ∀ {j s}, (d.screens ++ [⟨device_id, Inner.new displays .default, .Nobody⟩])[j]? =
      some s → d.screens[j]? = some s ∨ j = d.screens.length ∧
        s = ⟨device_id, Inner.new displays .default, .Nobody⟩ := by
    intro j s hs
    rw [List.getElem?_append] at hs
    split at hs
    · exact .inl hs
    · rw [List.getElem?_singleton] at hs
      split at hs
      · cases hs
        exact .inr ⟨by omega, rfl⟩
      · cases hs
  constructor
  · intro s hs
    rw [List.mem_append, List.mem_singleton] at hs
    rcases hs with hs | rfl
    · exact hsound.told s hs
    · rfl
  · intro j s hs hawaits
    rcases hscreens hs with hs | ⟨rfl, rfl⟩
    · exact hsound.fresh hs hawaits
    · exact ⟨rfl, rfl, fun c hc => (hsound.waiting c hc).ne⟩
  · intro j s hs hopen hnone
    rcases hscreens hs with hs | ⟨rfl, rfl⟩
    · exact hsound.settled hs hopen hnone
    · exact rfl
  · intro c hc
    rw [List.length_append]
    exact Nat.lt_add_right _ (hsound.waiting c hc)
  · intro j k s other hs hother hwants hwants'
    rcases hscreens hs with hs | ⟨rfl, rfl⟩
    · rcases hscreens hother with hother | ⟨rfl, rfl⟩
      · exact hsound.one hs hother hwants hwants'
      · simp [Screen.wants] at hwants'
    · simp [Screen.wants] at hwants
  · intro device
    rw [hsound.watching]
    simp [or_and_right, exists_or, hclosed]
  · intro watcher hwatcher
    rw [hsound.driving watcher hwatcher]
    simp [or_and_right, exists_or, Screen.wants]

theorem call_sound (hsound : Sound d) (k : Nat) (hfits : d.fits (.call k) = true) :
    Sound (d.call k) := by
  unfold call
  cases hcall : d.calls[k]? with
  | none => exact hsound
  | some c =>
    have hc : c ∈ d.calls := List.mem_of_getElem? hcall
    obtain ⟨screen, hscreen⟩ : ∃ screen, d.screens[c.screen]? = some screen :=
      ⟨_, List.getElem?_eq_getElem (hsound.waiting c hc)⟩
    simp only [hscreen]
    obtain ⟨htold, hcontrol, hstate⟩ :=
      told_set_control (hsound.told screen (List.mem_of_getElem? hscreen)) c.holder
    have hopen : (screen.inner.set_control c.holder).is_open = screen.inner.is_open := by
      simp [Inner.is_open, HostSession.is_open, hstate]
    have hkept : ∀ c' ∈ d.calls, c'.screen ≠ c.screen → c' ∈ d.calls.eraseIdx k := by
      intro c' hc' hne
      obtain ⟨j, hj⟩ := List.mem_iff_getElem?.mp hc'
      refine List.mem_eraseIdx_iff_getElem?.mpr ⟨j, ?_, hj⟩
      rintro rfl
      rw [hcall] at hj
      cases hj
      exact hne rfl
    refine sound_of_quiet hsound (moves_set hscreen (screen.inner.set_control c.holder) screen.asked _
      (fun c' hc' => .inl (List.mem_of_mem_eraseIdx hc')) hkept) rfl htold
      (fun hawaits => ?_) (fun hopen' hnone => ?_) hopen rfl
    · -- nothing was started for a session that waits for its hello
      rw [hstate] at hawaits
      exact absurd rfl ((hsound.fresh hscreen hawaits).2.2 c hc)
    · simp [fits, hcall, hscreen, ← hopen, hopen'] at hfits
      rcases hfits with ⟨other, hother, hsame⟩ | hasked
      · exact absurd hsame (hnone other hother)
      · exact hcontrol.trans hasked

theorem step_sound (hsound : Sound d) (step : Step) (hfits : d.fits step = true) :
    Sound (d.step step) := by
  cases step with
  | set_enabled enabled => exact ⟨hsound.told, hsound.fresh, hsound.settled, hsound.waiting, hsound.one,
      hsound.watching, hsound.driving⟩
  | connect device_id displays => exact connect_sound hsound device_id displays
  | receive i capability message ticket =>
    simp only [Desktop.step]
    cases hscreen : d.screens[i]? with
    | none => simpa [act, hscreen] using hsound
    | some screen =>
      obtain ⟨hdoes, htold⟩ := does_handle_message screen.inner capability message ticket
      refine act_sound hsound hscreen _ hdoes htold ?_
      simpa [fits, hscreen] using hfits
  | close i reason =>
    simp only [Desktop.step]
    cases hscreen : d.screens[i]? with
    | none => simpa [act, hscreen] using hsound
    | some screen =>
      obtain ⟨hdoes, htold⟩ := does_close screen.inner reason
      refine act_sound hsound hscreen _ hdoes htold ?_
      simpa [fits, hscreen] using hfits
  | call k => exact call_sound hsound k hfits

/-! ## Every run -/

theorem sound_new : Sound new := by
  constructor <;> simp [new]

theorem tells_truth (hsound : Sound d) (hdone : d.calls = []) : TellsTruth d := by
  have hdrives : ∀ {s}, s ∈ d.screens → (s.drives ↔ s.wants = true) := by
    intro s hs
    obtain ⟨j, hj⟩ := List.mem_iff_getElem?.mp hs
    simp only [Screen.drives, Screen.wants, Bool.and_eq_true, decide_eq_true_eq]
    refine and_congr_right fun hopen => ?_
    rw [hsound.told s hs, hsound.settled hj hopen (by simp [hdone])]
  refine ⟨fun hs hother hdrive hdrive' => ?_, hsound.watching, fun watcher hwatcher => ?_⟩
  · rw [hdrives (List.mem_of_getElem? hs)] at hdrive
    rw [hdrives (List.mem_of_getElem? hother)] at hdrive'
    exact hsound.one hs hother hdrive hdrive'
  · rw [hsound.driving watcher hwatcher]
    exact exists_congr fun s => and_congr_right fun hs => and_congr_right fun _ => (hdrives hs).symm

end

/-- Every run whose events are all welcome tells the truth whenever no answer is on its way. -/
theorem the_indicator_tells_the_truth (steps : List Step)
    (hfits : Runs.steps step fits new steps = true) (hdone : (Runs.run step new steps).calls = []) :
    TellsTruth (Runs.run step new steps) :=
  tells_truth (Runs.keeps Sound (fun _ step hsound hfits => step_sound hsound step hfits) sound_new hfits)
    hdone

/-! ## Two phones -/

def main_display : SurfaceInfo :=
  ⟨1, ⟨800, 600, by decide, by decide, by decide, by decide⟩, 1000, "Main Display"⟩

def greeting : Message := .Hello ⟨PROTOCOL_VERSION, ⟨List.replicate 32 0, by decide⟩, 0, none, .none⟩

/-- A phone connects as the session with this number and opens it. -/
def joins (i : Nat) (device_id : ControllerDeviceId) : List Step :=
  [.connect device_id [main_display], .receive i .Observe greeting (some ⟨device_id, true, true, true⟩)]

def both_ask : List Step :=
  [.set_enabled true] ++ joins 0 1 ++ joins 1 2 ++
    [.receive 0 .Observe .RequestControl none, .receive 1 .Observe .RequestControl none,
      .call 0, .call 0]

/-- The second phone waits until the first one gave control up. -/
def one_after_the_other : List Step :=
  [.set_enabled true] ++ joins 0 1 ++ joins 1 2 ++
    [.receive 0 .Observe .RequestControl none, .call 0, .receive 0 .Observe .ReleaseControl none,
      .call 0, .receive 1 .Observe .RequestControl none, .call 0]

theorem the_indicator_tells_the_truth_of_two_phones :
    TellsTruth (Runs.run step new one_after_the_other) :=
  the_indicator_tells_the_truth one_after_the_other (by decide +kernel) (by decide +kernel)

theorem two_phones_drive_at_once :
    ¬∀ steps, (Runs.run step new steps).calls = [] → TellsTruth (Runs.run step new steps) := by
  intro h
  have htruth := h both_ask (by decide +kernel)
  have hdrives : ∀ i, i < 2 → ∃ screen, (Runs.run step new both_ask).screens[i]? = some screen ∧
      screen.drives := by
    intro i hi
    have hsome : ((Runs.run step new both_ask).screens[i]?.any fun screen =>
        screen.inner.is_open && screen.inner.told = .You) = true := by
      interval_cases i <;> decide +kernel
    rw [Option.any_eq_true] at hsome
    obtain ⟨screen, hscreen, hopen⟩ := hsome
    exact ⟨screen, hscreen, by simpa [Screen.drives] using hopen⟩
  obtain ⟨screen, hscreen, hdrive⟩ := hdrives 0 (by simp)
  obtain ⟨other, hother, hdrive'⟩ := hdrives 1 (by simp)
  simpa using htruth.one hscreen hother hdrive hdrive'

end Desktop

end multiplex_desktop.screen_sharing
