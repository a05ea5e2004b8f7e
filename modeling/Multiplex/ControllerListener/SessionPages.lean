-- The list of sessions that a paired device reads page by page: panes of the
-- desktop app, tmux sessions, shells and durable sessions, each with what it
-- counts its changes by. A device that gives the revision of its first page is
-- told when the list has changed.
import Multiplex.ControllerListener.DesktopPaneLaws
import Multiplex.ControllerListener.ProtocolText
import Multiplex.Store.SessionLaws

open multiplex_domain.controller_devices (ControllerCapabilities ControllerCapability)
open multiplex_domain.session (HostedSessionId HostedSessionState ActivityState HostedSession GroupId
  is_whitespace trim)
open multiplex_controller_listener.protocol multiplex_controller_listener.desktop_panes
open multiplex_store.session_list (SessionsDocument)

namespace multiplex_controller_listener.session_pages

def TMUX_RUNTIME_ID : String := "tmux"
def CONSOLE_RUNTIME_ID : String := "shell"
def MAX_TITLE_CHARS : Nat := 256
def U64_LIMIT : Nat := 2 ^ 64

/-! ## The sources -/

structure DiscoveredTmuxSession where
  session_id : HostedSessionId
  tmux_id : String
  name : String
  generation : OccupantGeneration

def DiscoveredTmuxSession.title (session : DiscoveredTmuxSession) : String :=
  let name := if trim session.name.toList = [] then "tmux " ++ session.tmux_id else session.name
  String.ofList (name.toList.take MAX_TITLE_CHARS)

/-- tmux numbers its sessions, and the id of each is made from that number. -/
structure TmuxListing where
  sessions : List DiscoveredTmuxSession
  distinct : (sessions.map (·.session_id)).Nodup

/-- A shell whose Host serves. -/
structure LiveConsoleSession where
  session_id : HostedSessionId
  title : String
  started_at : Nat
  generation : OccupantGeneration

/-- The folder of a shell has the name of its id. -/
structure ConsoleFolder where
  sessions : List LiveConsoleSession
  distinct : (sessions.map (·.session_id)).Nodup

/-- The newest first. The digits of an id sort as its number does. -/
def live_console_sessions (folder : ConsoleFolder) : List LiveConsoleSession :=
  folder.sessions.insertionSort fun a b =>
    b.started_at < a.started_at ∨ b.started_at = a.started_at ∧ a.session_id ≤ b.session_id

inductive OccupantOwnership where
  | Managed
  | Observed
  | Ambiguous

/-- What the Host of a session has written about itself. -/
structure HostMetadata where
  host_instance_id : Nat
  occupant : Option (String × OccupantOwnership)
  generation : OccupantGeneration

/-- The repositories as they load, with the groups of the library and the metadata of the Hosts. -/
structure Durable where
  document : SessionsDocument
  distinct : (document.sessions.map (·.id)).Nodup
  library_revision : Nat
  group_names : List (GroupId × String)
  metadata : HostedSessionId → Option HostMetadata

/-- What the list is made from. The app and the repositories are numbered anew when they are
started or put back, which the listener does not see. -/
structure Sources where
  registry : DesktopPaneRegistry
  app : Nat
  bridge : Bool
  tmux : Option TmuxListing
  console : ConsoleFolder
  durable : Durable
  restores : Nat

/-- The digests over the listings of tmux and of the shells, as numbers of 64 bits. -/
structure Digests where
  tmux : List (HostedSessionId × String) → UInt64
  console : List (HostedSessionId × OccupantGeneration) → UInt64

/-! ## Summaries -/

def controller_session_capabilities (capabilities : ControllerCapabilities) :
    List ControllerSessionCapability :=
  [(ControllerCapability.ObserveSessions, ControllerSessionCapability.ObserveSessions),
    (.AttachOutput, .AttachOutput), (.SendInput, .SendInput), (.Resize, .Resize),
    (.RespondToApproval, .RespondToApproval)].filterMap fun (permission, summary) =>
      if capabilities.contains permission then some summary else none

def lifecycle_code : HostedSessionState → String
  | .Draft => "draft"
  | .Validating => "validating"
  | .Starting => "starting"
  | .Provisioning => "provisioning"
  | .Attaching => "attaching"
  | .Replaying => "replaying"
  | .Live => "live"
  | .RecordingPaused => "recording_paused"
  | .Stopping => "stopping"
  | .Offline => "offline"
  | .Orphaned => "orphaned"
  | .Gap => "gap"
  | .PermissionDenied => "permission_denied"
  | .Incompatible => "incompatible"
  | .RunningAppAttached => "running_app_attached"
  | .Failed => "failed"
  | .Cancelled => "cancelled"
  | .Exited => "exited"

def activity_code : ActivityState → String
  | .Unknown => "unknown"
  | .Idle => "idle"
  | .Busy => "busy"
  | .NeedsInput => "needs_input"
  | .Done => "done"
  | .Failed => "failed"

def tmux_session_summary (capabilities : List ControllerSessionCapability)
    (session : DiscoveredTmuxSession) : ControllerSessionSummary where
  session_id := session.session_id
  host_instance_id := none
  origin := .Terminal
  runtime := some TMUX_RUNTIME_ID
  capabilities
  title := session.title
  group := none
  lifecycle := lifecycle_code .Live
  activity := activity_code .Unknown
  occupant_generation := some session.generation
  last_output_sequence := 0
  has_writer := false
  unread := false

def console_session_summary (capabilities : List ControllerSessionCapability)
    (session : LiveConsoleSession) : ControllerSessionSummary where
  session_id := session.session_id
  host_instance_id := none
  origin := .Terminal
  runtime := some CONSOLE_RUNTIME_ID
  capabilities
  title := session.title
  group := none
  lifecycle := lifecycle_code .Live
  activity := activity_code .Unknown
  occupant_generation := some session.generation
  last_output_sequence := 0
  has_writer := false
  unread := false

def origin_of : Option HostMetadata → ControllerSessionOrigin
  | none => .Unknown
  | some metadata =>
    match metadata.occupant with
    | none => .Terminal
    | some (_, .Managed) => .ManagedAgent
    | some (_, .Observed) => .ObservedAgent
    | some (_, .Ambiguous) => .Unknown

def durable_session_summary (durable : Durable) (capabilities : List ControllerSessionCapability)
    (session : HostedSession) : ControllerSessionSummary :=
  let metadata := durable.metadata session.id
  { session_id := session.id
    host_instance_id := metadata.map (·.host_instance_id)
    origin := origin_of metadata
    runtime := metadata.bind fun metadata => metadata.occupant.map (·.1)
    capabilities
    title := String.ofList session.title
    group := session.group_id.bind fun group_id =>
      (durable.group_names.find? (·.1 = group_id)).map (·.2)
    lifecycle := lifecycle_code session.lifecycle
    activity := activity_code session.activity.state
    occupant_generation := metadata.map (·.generation)
    last_output_sequence := session.last_output_sequence
    has_writer := false
    unread := session.unread_sequence.any (session.read_through_sequence < ·) }

/-! ## Revisions -/

/-- What the revision of a tmux listing is made from, whatever its order. -/
def tmux_entries (sessions : List DiscoveredTmuxSession) : List (HostedSessionId × String) :=
  (sessions.map fun session => (session.session_id, session.title)).insertionSort
    fun a b => a.1 < b.1 ∨ a.1 = b.1 ∧ a.2 ≤ b.2

def listing_revision (digests : Digests) (sessions : List DiscoveredTmuxSession) : UInt64 :=
  digests.tmux (tmux_entries sessions)

def console_entries (sessions : List LiveConsoleSession) :
    List (HostedSessionId × OccupantGeneration) :=
  sessions.map fun session => (session.session_id, session.generation)

def console_listing_revision (digests : Digests) (sessions : List LiveConsoleSession) : UInt64 :=
  digests.console (console_entries sessions)

def Durable.session_revision (durable : Durable) : Nat := durable.document.revision

def Durable.revision (durable : Durable) : UInt64 :=
  .ofNat (min (min (durable.session_revision + durable.library_revision) (U64_LIMIT - 1) + 1)
    (U64_LIMIT - 1))

structure Revisions where
  durable : UInt64
  live : UInt64
  tmux : Option UInt64
  console : UInt64
  deriving DecidableEq

/-- The revision of the list. It wraps around. -/
def Revisions.mixed (r : Revisions) : Nat :=
  let revision := r.durable * 31 + r.live
  let revision := r.tmux.elim revision fun tmux => revision * 31 + tmux
  max (revision * 31 + r.console).toNat 1

namespace Sources

variable (s : Sources)

/-- A bridge that does not answer counts as an app without panes. -/
def live : Nat × List ControllerSessionSummary := if s.bridge then s.registry.snapshot else (1, [])

def tmux_sessions : List DiscoveredTmuxSession := s.tmux.elim [] (·.sessions)

def revisions (digests : Digests) : Revisions where
  durable := s.durable.revision
  live := .ofNat s.live.1
  tmux := s.tmux.map fun listing => listing_revision digests listing.sessions
  console := console_listing_revision digests (live_console_sessions s.console)

/-- Live terminals first, then tmux and shell sessions, then durable history. A session that is
listed already is left out. -/
def list (capabilities : ControllerCapabilities) : List ControllerSessionSummary :=
  let session_capabilities := controller_session_capabilities capabilities
  let live_capabilities := session_capabilities.filter (· ≠ .Resize)
  let live := s.live.2.map fun session => { session with capabilities := live_capabilities }
  let tmux := (s.tmux_sessions.filter fun session =>
    session.session_id ∉ live.map (·.session_id)).map (tmux_session_summary live_capabilities)
  let console := ((live_console_sessions s.console).filter fun session =>
    session.session_id ∉ (live ++ tmux).map (·.session_id)).map
      (console_session_summary session_capabilities)
  let durable := (s.durable.document.sessions.map
    (durable_session_summary s.durable session_capabilities)).filter fun session =>
      session.session_id ∉ (live ++ tmux ++ console).map (·.session_id)
  live ++ tmux ++ console ++ durable

end Sources

def pane_order (registry : DesktopPaneRegistry) : List HostedSessionId :=
  registry.snapshot.2.map (·.session_id)

/-! ## Pages -/

/-- The loop that fills a page. The first session always goes in. -/
def fill (encoded_bytes : Nat) (page : List ControllerSessionSummary) :
    List ControllerSessionSummary → List ControllerSessionSummary
  | [] => page
  | summary :: rest =>
    let summary_bytes := summary.text.length + 1
    if page ≠ [] ∧ MAX_SESSION_PAGE_BYTES < encoded_bytes + summary_bytes then page
    else fill (encoded_bytes + summary_bytes) (page ++ [summary]) rest

structure HostConnectionBackend where
  capabilities : ControllerCapabilities
  digests : Digests

def error_with_code (command_id : CommandId) (code : String) : ControllerResponse :=
  .Error command_id code false

def HostConnectionBackend.list_sessions (backend : HostConnectionBackend) (s : Sources)
    (command_id : CommandId) (offset limit : Nat) (expected_revision : Option Nat) :
    ControllerResponse :=
  let sessions := s.list backend.capabilities
  let revision := (s.revisions backend.digests).mixed
  if expected_revision.any (· ≠ revision) then error_with_code command_id "snapshot_changed"
  else if sessions.length < offset then error_with_code command_id "page_out_of_range"
  else
    let page := fill 512 [] ((sessions.drop offset).take limit)
    let stop := offset + page.length
    .Sessions command_id revision revision page
      (if stop < sessions.length then some (min stop (2 ^ 32 - 1)) else none)

/-! ## A device that reads page by page -/

inductive Ending where
  | Complete
  | Refused (code : String)
  | Malformed
  deriving DecidableEq

/-- A device gives the revision of its first page and goes on where the last page ended. -/
structure Paging where
  revision : Option Nat
  offset : Nat
  pages : List (List ControllerSessionSummary)
  ending : Option Ending

def Paging.start : Paging := ⟨none, 0, [], none⟩

def Paging.ids (p : Paging) : List HostedSessionId := p.pages.flatten.map (·.session_id)

def Paging.command (p : Paging) (limit : Nat) : ControllerCommand :=
  .ListSessions p.offset limit p.revision

def Paging.heard (p : Paging) : ControllerResponse → Paging
  | .Sessions _ revision _ sessions next_offset =>
    { revision := some (p.revision.getD revision)
      pages := p.pages ++ [sessions]
      offset := next_offset.getD p.offset
      ending := if next_offset.isNone then some .Complete else none }
  | .Error _ code _ => { p with ending := some (.Refused code) }
  | _ => { p with ending := some .Malformed }

abbrev Limit := { limit : Nat // 0 < limit ∧ limit ≤ MAX_SESSION_PAGE_RECORDS }

/-- The sources with the device, and what the sources were at its first request. -/
structure World where
  sources : Sources
  paging : Paging
  first : Option Sources

def World.start (sources : Sources) : World := ⟨sources, .start, none⟩

inductive Event where
  | «register» (registration : DesktopPaneRegistration)
  | update_title (session_id : HostedSessionId) (title : String)
  | update_size (session_id : HostedSessionId) (columns rows : Nat)
  | append_output (session_id : HostedSessionId) (bytes snapshot : List UInt8)
  | set_writer (session_id : HostedSessionId) (writer_connection : Option ConnectionId)
      (controller_viewport : Option (Nat × Nat))
  | remove (session_id : HostedSessionId)
  | start_app
  | set_bridge (answers : Bool)
  | list_tmux (listing : TmuxListing)
  | change_consoles (folder : ConsoleFolder)
  | commit_sessions (sessions : List HostedSession) (distinct : (sessions.map (·.id)).Nodup)
  | commit_library (group_names : List (GroupId × String))
  | write_metadata (metadata : HostedSessionId → Option HostMetadata)
  | restore_durable (durable : Durable)
  | request (command_id : CommandId) (limit : Limit)

namespace World

def with_registry (w : World) (registry : DesktopPaneRegistry) : World :=
  { w with sources := { w.sources with registry } }

def with_durable (w : World) (durable : Durable) : World :=
  { w with sources := { w.sources with durable } }

/-- The device asks for its next page, unless it has ended. -/
def request (backend : HostConnectionBackend) (w : World) (command_id : CommandId) (limit : Limit) :
    World :=
  match w.paging.ending with
  | some _ => w
  | none =>
    match (w.paging.command limit.val).validate with
    | .error _ => { w with paging := { w.paging with ending := some .Malformed } }
    | .ok () =>
      { w with
        first := some (w.first.getD w.sources)
        paging := w.paging.heard (backend.list_sessions w.sources command_id w.paging.offset
          limit.val w.paging.revision) }

def step (backend : HostConnectionBackend) (w : World) : Event → World
  | .register registration => w.with_registry (w.sources.registry.register registration)
  | .update_title session_id title => w.with_registry (w.sources.registry.update_title session_id title)
  | .update_size session_id columns rows =>
    w.with_registry (w.sources.registry.update_size session_id columns rows)
  | .append_output session_id bytes snapshot =>
    w.with_registry (w.sources.registry.append_output session_id bytes snapshot)
  | .set_writer session_id writer_connection controller_viewport =>
    w.with_registry (w.sources.registry.with_pane session_id fun pane =>
      { pane with writer_connection, controller_viewport })
  | .remove session_id => w.with_registry (w.sources.registry.remove session_id)
  | .start_app =>
    { w with sources := { w.sources with registry := ⟨0, .empty⟩, app := w.sources.app + 1 } }
  | .set_bridge bridge => { w with sources := { w.sources with bridge } }
  | .list_tmux listing =>
    { w with sources := { w.sources with tmux := w.sources.tmux.map fun _ => listing } }
  | .change_consoles console => { w with sources := { w.sources with console } }
  | .commit_sessions sessions distinct =>
    w.with_durable { w.sources.durable with
      document := ⟨w.sources.durable.document.revision + 1, sessions⟩, distinct }
  | .commit_library group_names =>
    w.with_durable { w.sources.durable with
      library_revision := w.sources.durable.library_revision + 1, group_names }
  | .write_metadata metadata => w.with_durable { w.sources.durable with metadata }
  | .restore_durable durable =>
    { w with sources := { w.sources with durable, restores := w.sources.restores + 1 } }
  | .request command_id limit => w.request backend command_id limit

end World

/-! ## One list -/

namespace Sources

variable (s : Sources)

def live_ids : List HostedSessionId := s.live.2.map (·.session_id)

def tmux_ids : List HostedSessionId := s.tmux_sessions.map (·.session_id)

def durable_ids : List HostedSessionId := s.durable.document.sessions.map (·.id)

def ids (capabilities : ControllerCapabilities) : List HostedSessionId :=
  (s.list capabilities).map (·.session_id)

end Sources

/-- The pages are those of one list. Its ids are told apart, the device has a front part of it, or
all of it at the end, and it asks for what it was told to, no more often than there are sessions.
Nothing else ends it but that the list has changed. -/
structure ReadsOneList (p : Paging) (ids : List HostedSessionId) : Prop where
  once : ids.Nodup
  so_far : p.ids <+: ids
  complete : p.ending = some .Complete → p.ids = ids
  told : p.ending = none ∨ p.ending = some .Complete ∨ p.ending = some (.Refused "snapshot_changed")
  goes_on : p.ending = none → ∀ limit : Limit, (p.command limit.val).validate = .ok ()
  ends : p.pages.length ≤ ids.length + 1

/-- Two listings of tmux or of the shells do not have one digest. -/
def no_collision (backend : HostConnectionBackend) (w : World) : Event → Bool
  | .request _ _ =>
    w.first.all fun f =>
      let entries := tmux_entries w.sources.tmux_sessions
      let first_entries := tmux_entries f.tmux_sessions
      let consoles := console_entries (live_console_sessions w.sources.console)
      let first_consoles := console_entries (live_console_sessions f.console)
      (decide (backend.digests.tmux entries = backend.digests.tmux first_entries →
          entries = first_entries)) &&
        decide (backend.digests.console consoles = backend.digests.console first_consoles →
          consoles = first_consoles)
  | _ => true

/-- No counter of changes is about to stop at its largest number. -/
def counts (s : Sources) : Bool :=
  s.registry.revision + 1 < U64_LIMIT &&
    s.durable.session_revision + s.durable.library_revision + 2 < U64_LIMIT

/-- The panes come from the app of the first page, which had made no first change since. Otherwise
they have another revision, or are the same. -/
def live_kept (f s : Sources) : Bool :=
  (s.app = f.app && s.bridge = f.bridge &&
    decide (f.registry.revision = 0 → s.registry.revision = 0)) ||
  s.live.1 ≠ f.live.1 || s.live_ids = f.live_ids

/-- The repositories were not put back, or have another revision or the same sessions. -/
def durable_kept (f s : Sources) : Bool :=
  s.restores = f.restores || s.durable.revision ≠ f.durable.revision || s.durable_ids = f.durable_ids

def tmux_kept (f s : Sources) : Bool :=
  decide (tmux_entries s.tmux_sessions = tmux_entries f.tmux_sessions → s.tmux_ids = f.tmux_ids)

/-- No source lists other sessions, or the same in another order, under the revision that it had at
the first page, and the offsets of the list are in range. -/
def moves_its_revision (backend : HostConnectionBackend) (w : World) (e : Event) : Bool :=
  counts w.sources &&
  match e with
  | .register registration =>
    (w.sources.registry.pane? registration.session_id).isNone || w.first.isNone ||
      pane_order (w.sources.registry.register registration) = pane_order w.sources.registry
  | .request _ _ =>
    decide ((w.sources.list backend.capabilities).length ≤ 10001) &&
    w.first.all fun f =>
      decide ((w.sources.revisions backend.digests).mixed = (f.revisions backend.digests).mixed →
        w.sources.revisions backend.digests = f.revisions backend.digests) &&
      live_kept f w.sources && durable_kept f w.sources && tmux_kept f w.sources
  | _ => true

end multiplex_controller_listener.session_pages
