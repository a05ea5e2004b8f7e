-- The hosts that attach to tmux sessions, which all connections to one session
-- share. Users are counted for each session, so a user of a host that has
-- died is taken for one of the host in its place.
import Multiplex.Lib.Runs
import Multiplex.ControllerListener.Protocol

open multiplex_domain.session (HostedSessionId)
open multiplex_controller_listener.protocol (OccupantGeneration)

namespace multiplex_controller_listener.tmux_sessions

abbrev ConnectionId := Nat
abbrev SessionHostHandle := Nat

/-! ## The source -/

/-- A session as tmux lists it, as far as hosts compare it. -/
structure TmuxSession where
  id : String
  created_unix_seconds : Nat

def TmuxSession.same_session (a b : TmuxSession) : Bool :=
  a.id = b.id ∧ a.created_unix_seconds = b.created_unix_seconds

structure DiscoveredTmuxSession where
  session_id : HostedSessionId
  session : TmuxSession

structure AttachHost where
  session : TmuxSession
  handle : SessionHostHandle
  users : Nat

structure GenerationState where
  last_started : Nat
  live : Bool

def GenerationState.current (s : GenerationState) : OccupantGeneration :=
  if s.live then s.last_started else min (s.last_started + 1) (2 ^ 64 - 1)

structure TmuxSessionSource where
  hosts : HostedSessionId → Option AttachHost
  generations : HostedSessionId → GenerationState

structure AcquiredHost where
  handle : SessionHostHandle
  generation : OccupantGeneration
  fresh : Bool

namespace TmuxSessionSource

def generation (source : TmuxSessionSource) (session_id : HostedSessionId) : OccupantGeneration :=
  (source.generations session_id).current

def set_generation (source : TmuxSessionSource) (session_id : HostedSessionId)
    (update : GenerationState → GenerationState) : TmuxSessionSource :=
  { source with
    generations := Function.update source.generations session_id
      (update (source.generations session_id)) }

def set_host (source : TmuxSessionSource) (session_id : HostedSessionId) (host : Option AttachHost) :
    TmuxSessionSource :=
  { source with hosts := Function.update source.hosts session_id host }

/-- The host of a session is taken out, and is about to be stopped. -/
def without_host (source : TmuxSessionSource) (session_id : HostedSessionId) : TmuxSessionSource :=
  (source.set_host session_id none).set_generation session_id fun state => { state with live := false }

/-- What an acquire leaves, the host it stops, and the host it returns. -/
structure Acquired where
  source : TmuxSessionSource
  stopped : Option SessionHostHandle
  result : Option AcquiredHost

def start (source : TmuxSessionSource) (discovered : DiscoveredTmuxSession)
    (stopped : Option SessionHostHandle) (started : Option SessionHostHandle) : Acquired :=
  let generation := source.generation discovered.session_id
  match started with
  | none => ⟨source, stopped, none⟩
  | some handle =>
    ⟨(source.set_generation discovered.session_id fun _ => ⟨generation, true⟩).set_host
        discovered.session_id (some ⟨discovered.session, handle, 1⟩),
      stopped, some ⟨handle, generation, true⟩⟩

/-- Ensures a host is attached to the session and counts one more user of it. Whether there is a
tmux, which hosts have exited, and what a start gives comes from outside. -/
def acquire (source : TmuxSessionSource) (discovered : DiscoveredTmuxSession) (tmux : Bool)
    (exited : SessionHostHandle → Bool) (started : Option SessionHostHandle) : Acquired :=
  if ¬ tmux then ⟨source, none, none⟩
  else
    match source.hosts discovered.session_id with
    | some host =>
      if ¬ exited host.handle ∧ host.session.same_session discovered.session then
        ⟨source.set_host discovered.session_id (some { host with users := host.users + 1 }), none,
          some ⟨host.handle, source.generation discovered.session_id, false⟩⟩
      else (source.without_host discovered.session_id).start discovered (some host.handle) started
    | none => source.start discovered none started

/-- Drops one user of the session's host, and takes the host out after the last one. -/
def release_now (source : TmuxSessionSource) (session_id : HostedSessionId) :
    TmuxSessionSource × Option SessionHostHandle :=
  match source.hosts session_id with
  | none => (source, none)
  | some host =>
    if 0 < host.users - 1 then
      (source.set_host session_id (some { host with users := host.users - 1 }), none)
    else (source.without_host session_id, some host.handle)

end TmuxSessionSource

/-! ## Connections and hosts -/

/-- A connection was given a host, and has not released it. -/
structure Grant where
  connection_id : ConnectionId
  session_id : HostedSessionId
  handle : SessionHostHandle
  deriving DecidableEq

structure Started where
  session_id : HostedSessionId
  generation : OccupantGeneration
  handle : SessionHostHandle

/-- The source, with the hosts that were started, stopped or exited on their own, and what
connections hold. -/
structure World where
  source : TmuxSessionSource
  next_handle : SessionHostHandle
  started : List Started
  exited : List SessionHostHandle
  stopped : List SessionHostHandle
  grants : List Grant

inductive HostEvent where
  | acquire (connection_id : ConnectionId) (discovered : DiscoveredTmuxSession) (tmux starts : Bool)
  | release (grant : Grant)
  | exits (handle : SessionHostHandle)

namespace World

def initial : World where
  source := ⟨fun _ => none, fun _ => ⟨0, false⟩⟩
  next_handle := 0
  started := []
  exited := []
  stopped := []
  grants := []

/-- A release is of a host that the connection was given, and hosts exit once they have started. -/
def step (w : World) : HostEvent → World
  | .acquire connection_id discovered tmux starts =>
    let acquired := w.source.acquire discovered tmux (fun handle => handle ∈ w.exited)
      (if starts then some w.next_handle else none)
    { w with
      source := acquired.source
      next_handle := w.next_handle + 1
      started := (acquired.result.filter (·.fresh)).toList.map (fun host =>
        ⟨discovered.session_id, host.generation, host.handle⟩) ++ w.started
      stopped := acquired.stopped.toList ++ w.stopped
      grants := acquired.result.toList.map (fun host =>
        ⟨connection_id, discovered.session_id, host.handle⟩) ++ w.grants }
  | .release grant =>
    if grant ∈ w.grants then
      let released := w.source.release_now grant.session_id
      { w with
        source := released.1
        stopped := released.2.toList ++ w.stopped
        grants := w.grants.erase grant }
    else w
  | .exits handle =>
    if (w.started.any (·.handle = handle)) then { w with exited := handle :: w.exited } else w

def run (events : List HostEvent) : World := Runs.run step initial events

def steps (p : World → HostEvent → Bool) (events : List HostEvent) : Bool :=
  Runs.steps step p initial events

end World

/-! ## What is asked of hosts -/

/-- A host that a connection holds is there and was not stopped, unless it has exited. -/
def LivesWhileHeld (w : World) : Prop :=
  ∀ g ∈ w.grants, g.handle ∉ w.exited →
    g.handle ∉ w.stopped ∧ ∃ host, w.source.hosts g.session_id = some host ∧ host.handle = g.handle

/-- Once nothing is held, every host that was started is stopped, and none is left. -/
def EndsWhenReleased (w : World) : Prop :=
  w.grants = [] → (∀ id, w.source.hosts id = none) ∧ ∀ s ∈ w.started, s.handle ∈ w.stopped

def DistinctGenerations (w : World) : Prop :=
  ∀ s ∈ w.started, ∀ s' ∈ w.started, s.session_id = s'.session_id → s.handle ≠ s'.handle →
    s.generation ≠ s'.generation

/-- No release reaches a host that came in the place of the one released, and no acquire finds a
host of another tmux session that somebody holds. -/
def counts_its_own (w : World) : HostEvent → Bool
  | .release grant =>
    grant ∉ w.grants ∨ (w.source.hosts grant.session_id).all fun host =>
      host.handle = grant.handle ∨ host.handle ∈ w.exited
  | .acquire _ discovered tmux _ =>
    ¬ tmux ∨ (w.source.hosts discovered.session_id).all fun host =>
      host.handle ∈ w.exited ∨ host.session.same_session discovered.session ∨
        ¬ w.grants.any (·.handle = host.handle)
  | .exits _ => true

/-- The generations of a session have not come to their end. -/
def has_generation_left (w : World) : HostEvent → Bool
  | .acquire _ discovered _ _ =>
    (w.source.generations discovered.session_id).last_started < 2 ^ 64 - 1
  | _ => true

/-! ## Moves -/

namespace TmuxSessionSource

section
variable (source : TmuxSessionSource) (id id' : HostedSessionId)

variable (host : Option AttachHost) (update : GenerationState → GenerationState)

@[simp] theorem hosts_set_host :
    (source.set_host id host).hosts id' = if id' = id then host else source.hosts id' := by
  simp [set_host, Function.update_apply]

@[simp] theorem hosts_set_generation : (source.set_generation id update).hosts = source.hosts := rfl

@[simp] theorem hosts_without_host :
    (source.without_host id).hosts id' = if id' = id then none else source.hosts id' := by
  simp [without_host]

@[simp] theorem generations_set_host :
    (source.set_host id host).generations = source.generations := rfl

@[simp] theorem generations_set_generation : (source.set_generation id update).generations id' =
      if id' = id then update (source.generations id) else source.generations id' := by
  simp [set_generation, Function.update_apply]

@[simp] theorem generations_without_host : (source.without_host id).generations id' =
      if id' = id then { source.generations id with live := false } else source.generations id' := by
  simp [without_host]

theorem stopped_start (discovered : DiscoveredTmuxSession) (stopped started : Option SessionHostHandle) :
    (source.start discovered stopped started).stopped = stopped := by
  cases started <;> rfl

end

end TmuxSessionSource

/-- What happens to hosts, one thing at a time. Where the counts are fair, a host that is stopped
for another is held by nobody, and a release is of the host that it reaches. -/
inductive Move (fair left : Prop) : World → World → Prop
  | passes (w : World) : Move fair left w { w with next_handle := w.next_handle + 1 }
  | exits {w : World} {s : Started} (hstarted : s ∈ w.started) :
      Move fair left w { w with exited := s.handle :: w.exited }
  | stops {w : World} {id : HostedSessionId} {host : AttachHost} (hhost : w.source.hosts id = some host)
      (hfair : fair → host.handle ∈ w.exited ∨ ∀ g ∈ w.grants, g.handle ≠ host.handle) :
      Move fair left w
        { w with source := w.source.without_host id, stopped := host.handle :: w.stopped }
  | starts {w : World} (c : ConnectionId) (discovered : DiscoveredTmuxSession)
      (hhost : w.source.hosts discovered.session_id = none)
      (hleft : left → (w.source.generations discovered.session_id).last_started < 2 ^ 64 - 1) :
      Move fair left w
        { w with
          source := (w.source.set_generation discovered.session_id fun _ =>
              ⟨w.source.generation discovered.session_id, true⟩).set_host discovered.session_id
            (some ⟨discovered.session, w.next_handle, 1⟩)
          next_handle := w.next_handle + 1
          started := ⟨discovered.session_id, w.source.generation discovered.session_id,
            w.next_handle⟩ :: w.started
          grants := ⟨c, discovered.session_id, w.next_handle⟩ :: w.grants }
  | joins {w : World} (c : ConnectionId) {id : HostedSessionId} {host : AttachHost}
      (hhost : w.source.hosts id = some host) :
      Move fair left w
        { w with
          source := w.source.set_host id (some { host with users := host.users + 1 })
          grants := ⟨c, id, host.handle⟩ :: w.grants }
  | leaves_nothing {w : World} {g : Grant} (hg : g ∈ w.grants)
      (hhost : w.source.hosts g.session_id = none) :
      Move fair left w { w with grants := w.grants.erase g }
  | leaves_others {w : World} {g : Grant} {host : AttachHost} (hg : g ∈ w.grants)
      (hhost : w.source.hosts g.session_id = some host) (husers : 1 < host.users)
      (hfair : fair → host.handle = g.handle ∨ host.handle ∈ w.exited) :
      Move fair left w
        { w with
          source := w.source.set_host g.session_id (some { host with users := host.users - 1 })
          grants := w.grants.erase g }
  | leaves_last {w : World} {g : Grant} {host : AttachHost} (hg : g ∈ w.grants)
      (hhost : w.source.hosts g.session_id = some host) (husers : host.users ≤ 1)
      (hfair : fair → host.handle = g.handle ∨ host.handle ∈ w.exited) :
      Move fair left w
        { w with
          source := w.source.without_host g.session_id
          stopped := host.handle :: w.stopped
          grants := w.grants.erase g }

theorem moves_step {fair left : Prop} {w : World} {e : HostEvent}
    (hfair : fair → counts_its_own w e = true) (hleft : left → has_generation_left w e = true) :
    Relation.ReflTransGen (Move fair left) w (w.step e) := by
  cases e with
  | exits handle =>
    simp only [World.step]
    split
    · rename_i hstarted
      obtain ⟨s, hs, hhandle⟩ := List.any_eq_true.mp hstarted
      obtain rfl : s.handle = handle := of_decide_eq_true hhandle
      exact .single (.exits hs)
    · exact .refl
  | release g =>
    simp only [World.step]
    split
    · rename_i hg
      unfold TmuxSessionSource.release_now
      cases hhost : w.source.hosts g.session_id with
      | none => exact .single (.leaves_nothing hg hhost)
      | some host =>
        have hown : fair → host.handle = g.handle ∨ host.handle ∈ w.exited := by
          intro h
          simpa [counts_its_own, hg, hhost] using hfair h
        by_cases husers : 0 < host.users - 1
        · simp [husers]
          exact .single (.leaves_others hg hhost (by omega) hown)
        · simp [husers]
          exact .single (.leaves_last hg hhost (by omega) hown)
    · exact .refl
  | acquire c discovered tmux starts =>
    simp only [World.step, TmuxSessionSource.acquire]
    by_cases htmux : tmux = true
    swap
    · simp only [htmux]
      exact .single (.passes w)
    simp [htmux]
    -- a start, once there is no host
    have start : ∀ {w' : World} (stopped : Option SessionHostHandle), w'.next_handle = w.next_handle →
        w'.source.hosts discovered.session_id = none →
        (left → (w'.source.generations discovered.session_id).last_started < 2 ^ 64 - 1) →
        Relation.ReflTransGen (Move fair left) w'
          (let acquired := w'.source.start discovered stopped
            (if starts then some w.next_handle else none)
          { w' with
            source := acquired.source
            next_handle := w'.next_handle + 1
            started := (acquired.result.filter (·.fresh)).toList.map (fun host =>
              ⟨discovered.session_id, host.generation, host.handle⟩) ++ w'.started
            grants := acquired.result.toList.map (fun host =>
              ⟨c, discovered.session_id, host.handle⟩) ++ w'.grants }) := by
      intro w' stopped hnext hhost hleft'
      cases starts with
      | false => exact .single (.passes w')
      | true =>
        simp [← hnext]
        exact .single (.starts c discovered hhost hleft')
    have hleft' : left → (w.source.generations discovered.session_id).last_started < 2 ^ 64 - 1 :=
      fun h => by simpa [has_generation_left] using hleft h
    cases hhost : w.source.hosts discovered.session_id with
    | none =>
      simp [TmuxSessionSource.stopped_start]
      exact start none rfl hhost hleft'
    | some host =>
      by_cases hsame : ¬ host.handle ∈ w.exited ∧ host.session.same_session discovered.session = true
      · simp [hsame]
        exact .head (.joins c hhost) (.single (.passes _))
      · simp [hsame]
        have hown : fair → host.handle ∈ w.exited ∨ ∀ g ∈ w.grants, g.handle ≠ host.handle := by
          intro h
          have hcounts := hfair h
          simp only [counts_its_own, htmux, hhost, Option.all_some, not_true_eq_false, false_or,
            decide_eq_true_eq, List.any_eq_true] at hcounts
          rcases hcounts with hexited | hsession | hnobody
          · exact .inl hexited
          · by_cases hexited : host.handle ∈ w.exited
            · exact .inl hexited
            · exact absurd ⟨hexited, hsession⟩ hsame
          · exact .inr fun g hg heq => hnobody ⟨g, hg, heq⟩
        simp [TmuxSessionSource.stopped_start]
        refine .head (.stops hhost hown) (start (some host.handle) rfl ?_ ?_)
        · simp
        · simpa using hleft'

end multiplex_controller_listener.tmux_sessions
