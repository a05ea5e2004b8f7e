-- The host side of remote screens for the running app: the devices that watch,
-- the session of each connection, and the answers to a request for control that
-- were started and have not run yet.
import Multiplex.Lib.Runs
import Multiplex.ScreenHost.Session

open multiplex_domain.controller_devices (ControllerDeviceId)
open multiplex_screen_codec (Size)
open multiplex_screen_protocol multiplex_screen_session multiplex_screen_host

namespace multiplex_desktop.screen_sharing

/-! ## Who watches -/

/-- A device that watches this computer now, for the sharing indicator. -/
structure ScreenWatcher where
  device_id : ControllerDeviceId
  display_name : String
  controlling : Bool

structure ScreenSharing where
  enabled : Bool
  watchers : List ScreenWatcher

namespace ScreenSharing

def set_enabled (sharing : ScreenSharing) (enabled : Bool) : ScreenSharing := { sharing with enabled }

def add_watcher (sharing : ScreenSharing) (watcher : ScreenWatcher) : ScreenSharing :=
  { sharing with
    watchers :=
      (sharing.watchers.filter fun existing => existing.device_id ≠ watcher.device_id) ++ [watcher] }

def remove_watcher (sharing : ScreenSharing) (device_id : ControllerDeviceId) : ScreenSharing :=
  { sharing with watchers := sharing.watchers.filter fun watcher => watcher.device_id ≠ device_id }

def set_controlling (sharing : ScreenSharing) (device_id : ControllerDeviceId)
    (controlling : Bool) : ScreenSharing :=
  { sharing with
    watchers := sharing.watchers.map fun watcher =>
      { watcher with controlling := watcher.device_id = device_id && controlling } }

/-- What the observer of a session of the device does with an event, and whom it hands control. -/
def observe (sharing : ScreenSharing) (device_id : ControllerDeviceId) :
    ScreenHostEvent → ScreenSharing × Option ControlHolder
  | .Opened _ => (sharing.add_watcher ⟨device_id, "", false⟩, none)
  | .Input _ => (sharing, none)
  | .ControlRequested => (sharing.set_controlling device_id true, some .You)
  | .ControlReleased => (sharing.set_controlling device_id false, some .Nobody)
  | .Closed _ => (sharing.remove_watcher device_id, none)

end ScreenSharing

/-! ## The computer, its sessions and the answers on their way -/

/-- The screen session of one connection. What its device asked for last is kept for the laws. -/
structure Screen where
  device_id : ControllerDeviceId
  inner : Inner
  asked : ControlHolder

/-- The open session whose device was told last that it holds control. -/
def Screen.drives (screen : Screen) : Prop := screen.inner.is_open = true ∧ screen.inner.told = .You

/-- The open session whose device asked for control last. -/
def Screen.wants (screen : Screen) : Bool := screen.inner.is_open && screen.asked = .You

/-- A thread that was started to tell a session who holds control. -/
structure Call where
  screen : Nat
  holder : ControlHolder

structure Desktop where
  sharing : ScreenSharing
  screens : List Screen
  calls : List Call

namespace Desktop

def new : Desktop := ⟨⟨false, []⟩, [], []⟩

/-- A connection gets a session, if anything is shared. -/
def connect (d : Desktop) (device_id : ControllerDeviceId) (displays : List SurfaceInfo) : Desktop :=
  if !d.sharing.enabled || displays.isEmpty then d
  else { d with screens := d.screens ++ [⟨device_id, Inner.new displays .default, .Nobody⟩] }

/-- The observer of a session hears an event of it. -/
def hear (i : Nat) (d : Desktop) (event : ScreenHostEvent) : Desktop :=
  match d.screens[i]? with
  | none => d
  | some screen =>
    let (sharing, handed) := d.sharing.observe screen.device_id event
    match handed with
    | none => { d with sharing }
    | some holder =>
      { d with
        sharing
        screens := d.screens.set i { screen with asked := holder }
        calls := d.calls ++ [⟨i, holder⟩] }

/-- A session does something, and the observer hears of it. -/
def act (d : Desktop) (i : Nat) (f : Inner → Inner × List ScreenHostEvent) : Desktop :=
  match d.screens[i]? with
  | none => d
  | some screen =>
    let (inner, events) := f screen.inner
    events.foldl (hear i) { d with screens := d.screens.set i { screen with inner } }

/-- One of the threads that were started runs, in whatever order they do. -/
def call (d : Desktop) (k : Nat) : Desktop :=
  match d.calls[k]? with
  | none => d
  | some c =>
    let d := { d with calls := d.calls.eraseIdx k }
    match d.screens[c.screen]? with
    | none => d
    | some screen =>
      { d with
        screens := d.screens.set c.screen { screen with inner := screen.inner.set_control c.holder } }

inductive Step where
  | set_enabled (enabled : Bool)
  | connect (device_id : ControllerDeviceId) (displays : List SurfaceInfo)
  | receive (screen : Nat) (capability : ScreenFrameCapability) (message : Message)
      (ticket : Option ScreenGrants)
  | close (screen : Nat) (reason : String)
  | call (k : Nat)

def step (d : Desktop) : Step → Desktop
  | .set_enabled enabled => { d with sharing := d.sharing.set_enabled enabled }
  | .connect device_id displays => d.connect device_id displays
  | .receive i capability message ticket => d.act i fun s => s.handle_message capability message ticket
  | .close i reason => d.act i fun s => s.close reason
  | .call k => d.call k

/-! ## What the indicator must say -/

/-- One device drives at most, and the indicator names who watches and who drives. -/
structure TellsTruth (d : Desktop) : Prop where
  one : ∀ {i j : Nat} {screen other : Screen}, d.screens[i]? = some screen →
    d.screens[j]? = some other → screen.drives → other.drives → i = j
  watching : ∀ device, (∃ watcher ∈ d.sharing.watchers, watcher.device_id = device) ↔
    ∃ screen ∈ d.screens, screen.device_id = device ∧ screen.inner.is_open = true
  driving : ∀ watcher ∈ d.sharing.watchers, watcher.controlling = true ↔
    ∃ screen ∈ d.screens, screen.device_id = watcher.device_id ∧ screen.drives

def others (d : Desktop) (i : Nat) (p : Screen → Bool) : Bool :=
  (List.range d.screens.length).any fun j => j ≠ i && d.screens[j]?.any p

/-- What must not be there for the event of a session to leave the indicator right: for the first
session of a device to open, another one of the device that wants control; for control to be asked
for or given up, any other that wants it; for a session to close, another open one of the device. -/
def welcomes (d : Desktop) (i : Nat) (screen : Screen) : ScreenHostEvent → Bool
  | .Opened _ => !d.others i fun other => other.device_id = screen.device_id && other.wants
  | .Input _ => true
  | .ControlRequested | .ControlReleased => !d.others i Screen.wants
  | .Closed _ => !d.others i fun other => other.device_id = screen.device_id && other.inner.is_open

/-- The events of a step are welcome, and a call that is the last one of an open session says what
its device asked for last. -/
def fits (d : Desktop) : Step → Bool
  | .receive i capability message ticket =>
    d.screens[i]?.all fun screen =>
      (screen.inner.handle_message capability message ticket).2.all (d.welcomes i screen)
  | .close i reason =>
    d.screens[i]?.all fun screen => (screen.inner.close reason).2.all (d.welcomes i screen)
  | .call k =>
    d.calls[k]?.all fun c =>
      ((d.calls.eraseIdx k).any fun other => other.screen = c.screen) ||
        d.screens[c.screen]?.all fun screen => !screen.inner.is_open || c.holder = screen.asked
  | _ => true

end Desktop

end multiplex_desktop.screen_sharing
