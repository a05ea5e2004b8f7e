-- When a live session moves to another route, as `route_plan.rs` decides it,
-- and what the moves of a session come to over a fixed set of routes.
import Multiplex.Lib.Runs

namespace multiplex_controller_bindings.route_plan

/-- A better route has to be this much better before a live session moves to it. -/
def IMPROVEMENT_RATIO : ℚ := 70 / 100

def MIGRATION_COOLDOWN_MILLIS : Nat := 30000

def FAILURE_QUARANTINE_MILLIS : Nat := 60000

structure RouteAddress where
  address : String
  port : Nat
  deriving DecidableEq

inductive RouteKind
  | LocalNetwork
  | Tailscale
  | OtherPrivate
  deriving DecidableEq

structure LiveRoute where
  route : RouteAddress
  kind : RouteKind
  round_trip_millis : Nat
  over_relay : Bool

structure MigrationCandidate where
  route : RouteAddress
  kind : RouteKind
  round_trip_millis : Nat
  over_relay : Bool
  millis_since_failed : Option Nat

inductive MigrationDecision
  | Migrate
  | NotBetter
  | LocalRouteKept
  | TooSoon
  | RecentlyFailed
  | Busy
  deriving DecidableEq

/-- The reasons not to move are all checked before the reasons to move. The source compares
the round trips as `f32`; here they are compared as the rationals they stand for. -/
def migration_decision (live : LiveRoute) (candidate : MigrationCandidate)
    (millis_since_last_migration : Option Nat) (writer_command_in_flight : Bool) :
    MigrationDecision :=
  if candidate.route = live.route then .NotBetter
  else if writer_command_in_flight then .Busy
  else if candidate.millis_since_failed.any (· < FAILURE_QUARANTINE_MILLIS) then .RecentlyFailed
  else if millis_since_last_migration.any (· < MIGRATION_COOLDOWN_MILLIS) then .TooSoon
  else if live.kind = .LocalNetwork ∧ !live.over_relay ∧ candidate.kind ≠ .LocalNetwork then
    .LocalRouteKept
  else if live.over_relay ∧ !candidate.over_relay then .Migrate
  else if candidate.over_relay ∧ !live.over_relay then .NotBetter
  else if (candidate.round_trip_millis : ℚ) ≤ live.round_trip_millis * IMPROVEMENT_RATIO then
    .Migrate
  else .NotBetter

/-! ## A session over a fixed set of routes -/

/-- What is fixed about one route: its kind, whether it is the relay's, and its round trip. -/
structure Measured where
  kind : RouteKind
  over_relay : Bool
  round_trip_millis : Nat

/-- One look at a candidate, with everything else that the decision reads at that time. -/
structure Look (routes : Finset RouteAddress) where
  candidate : routes
  millis_since_failed : Option Nat
  millis_since_last_migration : Option Nat
  writer_command_in_flight : Bool

/-- The live route of a session, and those it was on before, the last one first. -/
structure Session (routes : Finset RouteAddress) where
  live : routes
  earlier : List routes

variable {routes : Finset RouteAddress} {known : routes → Measured}

def liveRoute (known : routes → Measured) (r : routes) : LiveRoute :=
  ⟨r, (known r).kind, (known r).round_trip_millis, (known r).over_relay⟩

def Look.asCandidate (known : routes → Measured) (look : Look routes) : MigrationCandidate :=
  ⟨look.candidate, (known look.candidate).kind, (known look.candidate).round_trip_millis,
    (known look.candidate).over_relay, look.millis_since_failed⟩

def decided (known : routes → Measured) (live : routes) (look : Look routes) : MigrationDecision :=
  migration_decision (liveRoute known live) (look.asCandidate known)
    look.millis_since_last_migration look.writer_command_in_flight

/-- The session moves only when the decision is to migrate. -/
def looked (known : routes → Measured) (s : Session routes) (look : Look routes) : Session routes :=
  if decided known s.live look = .Migrate then ⟨look.candidate, s.live :: s.earlier⟩ else s

/-- What the moves of a session come to: no route is live twice, so there are fewer moves than
routes, and each move keeps a direct session direct and a session on a direct local route on a
local one. -/
structure Settles (known : routes → Measured) (s : Session routes) : Prop where
  once : (s.live :: s.earlier).Nodup
  few : s.earlier.length < routes.card
  stays_local : (s.live :: s.earlier).IsChain fun later before =>
    (known before).kind = .LocalNetwork → (known before).over_relay = false →
      (known later).kind = .LocalNetwork
  stays_direct : (s.live :: s.earlier).IsChain fun later before =>
    (known before).over_relay = false → (known later).over_relay = false

/-- Two routes with no round trip at all that nothing else sets apart. -/
def Tied (a b : Measured) : Prop :=
  a.round_trip_millis = 0 ∧ b.round_trip_millis = 0 ∧ a.over_relay = b.over_relay ∧
    (a.over_relay = true ∨ (a.kind = .LocalNetwork ↔ b.kind = .LocalNetwork))

/-! ## Every move goes down -/

/-- The order that a move descends: off the relay first, then to a shorter round trip, and at
one round trip onto the local network. -/
def Below (b a : Measured) : Prop :=
  (a.over_relay = true ∧ b.over_relay = false) ∨
    (a.over_relay = b.over_relay ∧ (b.round_trip_millis < a.round_trip_millis ∨
      (b.round_trip_millis = a.round_trip_millis ∧
        a.kind ≠ .LocalNetwork ∧ b.kind = .LocalNetwork)))

theorem Below.irrefl (a : Measured) : ¬ Below a a := by
  rintro (⟨h, h'⟩ | ⟨-, h | ⟨-, h, h'⟩⟩)
  · simp [h] at h'
  · exact lt_irrefl _ h
  · exact h h'

theorem Below.trans {a b c : Measured} (h : Below c b) (h' : Below b a) : Below c a := by
  rcases h with ⟨h1, h2⟩ | ⟨h1, h2⟩ <;> rcases h' with ⟨h3, h4⟩ | ⟨h3, h4⟩
  · simp [h1] at h4
  · exact .inl ⟨h3.trans h1, h2⟩
  · exact .inl ⟨h3, h1.symm.trans h4⟩
  · refine .inr ⟨h3.trans h1, ?_⟩
    rcases h2 with h2 | ⟨h2, h5, h6⟩ <;> rcases h4 with h4 | ⟨h4, h7, h8⟩
    · exact .inl (h2.trans h4)
    · exact .inl (h4 ▸ h2)
    · exact .inl (h2 ▸ h4)
    · exact absurd h8 h5

theorem ratio_iff (c l : Nat) :
    (c : ℚ) ≤ l * IMPROVEMENT_RATIO ↔ 10 * c ≤ 7 * l := by
  have hratio : (l : ℚ) * IMPROVEMENT_RATIO = 7 * l / 10 := by
    unfold IMPROVEMENT_RATIO
    ring
  constructor
  · intro h
    have : (10 * c : ℚ) ≤ 7 * l := by linarith
    exact_mod_cast this
  · intro h
    have : (10 * c : ℚ) ≤ 7 * l := by exact_mod_cast h
    linarith

theorem migrates {live : routes} {look : Look routes} (h : decided known live look = .Migrate) :
    let a := known live
    let b := known look.candidate
    look.candidate ≠ live ∧
      (a.kind = .LocalNetwork → a.over_relay = false → b.kind = .LocalNetwork) ∧
      ((a.over_relay = true ∧ b.over_relay = false) ∨
        (a.over_relay = b.over_relay ∧ 10 * b.round_trip_millis ≤ 7 * a.round_trip_millis)) := by
  unfold decided migration_decision at h
  split at h
  · cases h
  rename_i hother
  have hne : look.candidate ≠ live := fun heq => hother (congrArg Subtype.val heq)
  split at h
  · cases h
  split at h
  · cases h
  split at h
  · cases h
  split at h
  · cases h
  rename_i hkept
  refine ⟨hne, fun hlocal hdirect => by_contra fun haway => hkept ?_, ?_⟩
  · exact ⟨hlocal, by simpa [liveRoute] using hdirect, haway⟩
  split at h
  · rename_i hrelay
    exact .inl ⟨hrelay.1, by simpa [Look.asCandidate] using hrelay.2⟩
  rename_i hrelay
  split at h
  · cases h
  rename_i hdirect
  split at h
  · rename_i hratio
    refine .inr ⟨?_, (ratio_iff _ _).mp hratio⟩
    simp [liveRoute, Look.asCandidate] at hrelay hdirect
    exact Bool.eq_iff_iff.mpr ⟨hrelay, hdirect⟩
  · cases h

theorem below_of_migrates {live : routes} {look : Look routes}
    (h : decided known live look = .Migrate)
    (huntied : ¬ Tied (known live) (known look.candidate)) :
    Below (known look.candidate) (known live) := by
  obtain ⟨-, hlocal, hrelay | ⟨hsame, hratio⟩⟩ := migrates h
  · exact .inl hrelay
  refine .inr ⟨hsame, ?_⟩
  by_cases hzero : (known live).round_trip_millis = 0
  · have hzero' : (known look.candidate).round_trip_millis = 0 := by omega
    have hapart : ¬ ((known live).over_relay = true ∨ ((known live).kind = .LocalNetwork ↔
        (known look.candidate).kind = .LocalNetwork)) :=
      fun hwhich => huntied ⟨hzero, hzero', hsame, hwhich⟩
    rw [not_or, Bool.not_eq_true] at hapart
    refine .inr ⟨hzero'.trans hzero.symm, ?_⟩
    tauto
  · exact .inl (by omega)

/-! ## Every run settles -/

/-- The routes a session was on, each below those before it. -/
structure Descends (known : routes → Measured) (s : Session routes) : Prop where
  down : (s.live :: s.earlier).Pairwise fun later before => Below (known later) (known before)
  stays_local : (s.live :: s.earlier).IsChain fun later before =>
    (known before).kind = .LocalNetwork → (known before).over_relay = false →
      (known later).kind = .LocalNetwork

theorem descends_looked (huntied : ∀ a b : routes, a ≠ b → ¬ Tied (known a) (known b))
    {s : Session routes} (h : Descends known s) (look : Look routes) :
    Descends known (looked known s look) := by
  unfold looked
  split
  · rename_i hmigrate
    obtain ⟨hne, hlocal, -⟩ := migrates hmigrate
    have hbelow := below_of_migrates hmigrate (huntied _ _ hne.symm)
    obtain ⟨hlive, -⟩ := List.pairwise_cons.mp h.down
    refine ⟨List.pairwise_cons.mpr ⟨?_, h.down⟩, List.isChain_cons_cons.mpr ⟨hlocal, h.stays_local⟩⟩
    intro before hbefore
    rcases List.mem_cons.mp hbefore with rfl | hbefore
    · exact hbelow
    · exact hbelow.trans (hlive before hbefore)
  · exact h

theorem Descends.settles {s : Session routes} (h : Descends known s) : Settles known s := by
  have honce : (s.live :: s.earlier).Nodup := by
    apply h.down.imp
    rintro a b hbelow rfl
    exact Below.irrefl _ hbelow
  have hcard := honce.length_le_card
  rw [Fintype.card_coe, List.length_cons] at hcard
  refine ⟨honce, hcard, h.stays_local, ?_⟩
  apply h.down.isChain.imp
  rintro a b (⟨-, hdirect⟩ | ⟨hsame, -⟩) hbefore
  · exact hdirect
  · exact hsame.symm.trans hbefore

/-! ## Tied routes swap places -/

/-- A look at a route with nothing in the way of a move. -/
def quietLook (r : routes) : Look routes := ⟨r, none, none, false⟩

theorem migrates_of_tied {a b : routes} (hne : a ≠ b) (h : Tied (known a) (known b)) :
    decided known a (quietLook b) = .Migrate := by
  obtain ⟨hzero, hzero', hsame, hwhich⟩ := h
  have hother : (b : RouteAddress) ≠ a := fun heq => hne (Subtype.ext heq.symm)
  cases hrelay : (known b).over_relay <;>
    simp_all [decided, migration_decision, quietLook, Look.asCandidate, liveRoute]

theorem Tied.symm {a b : Measured} (h : Tied a b) : Tied b a := by
  obtain ⟨hzero, hzero', hsame, hwhich⟩ := h
  exact ⟨hzero', hzero, hsame.symm, hwhich.imp (hsame ▸ ·) Iff.symm⟩

theorem looked_of_tied {a b : routes} (hne : a ≠ b) (h : Tied (known a) (known b))
    (earlier : List routes) : looked known ⟨a, earlier⟩ (quietLook b) = ⟨b, a :: earlier⟩ := by
  unfold looked
  rw [if_pos (migrates_of_tied hne h)]
  rfl

theorem flaps_of_tied {a b : routes} (hne : a ≠ b) (h : Tied (known a) (known b)) :
    Runs.run (looked known) ⟨a, []⟩ [quietLook b, quietLook a] = ⟨a, [b, a]⟩ := by
  rw [Runs.run_cons, looked_of_tied hne h, Runs.run_cons, looked_of_tied hne.symm h.symm,
    Runs.run_nil]

theorem a_session_never_flaps_iff_no_routes_are_tied (known : routes → Measured) :
    (∀ (start : routes) (looks : List (Look routes)),
        Settles known (Runs.run (looked known) ⟨start, []⟩ looks)) ↔
      ∀ a b : routes, a ≠ b → ¬ Tied (known a) (known b) := by
  constructor
  · intro hsettles a b hne htied
    have honce := (hsettles a [quietLook b, quietLook a]).once
    rw [flaps_of_tied hne htied] at honce
    simp at honce
  · intro huntied start looks
    have hstart : Descends known ⟨start, []⟩ :=
      ⟨List.pairwise_singleton _ _, List.isChain_singleton _⟩
    exact (Runs.keeps_always (Descends known)
      (fun s look h => descends_looked huntied h look) hstart looks).settles

def sampleRoutes : Finset RouteAddress := {⟨"192.168.1.5", 7000⟩, ⟨"192.168.1.6", 7000⟩}

/-- Two addresses of one computer on a wire, each of which answers within a millisecond. -/
theorem two_quick_routes_swap_places :
    ¬ ∀ (known : sampleRoutes → Measured) (start : sampleRoutes) (looks : List (Look sampleRoutes)),
      Settles known (Runs.run (looked known) ⟨start, []⟩ looks) := by
  intro hsettles
  let a : sampleRoutes := ⟨⟨"192.168.1.5", 7000⟩, by simp [sampleRoutes]⟩
  let b : sampleRoutes := ⟨⟨"192.168.1.6", 7000⟩, by simp [sampleRoutes]⟩
  have hne : a ≠ b := fun h => by simpa [a, b] using congrArg (·.val.address) h
  have honce := (hsettles (fun _ => ⟨.LocalNetwork, false, 0⟩) a [quietLook b, quietLook a]).once
  rw [flaps_of_tied hne ⟨rfl, rfl, rfl, Or.inr Iff.rfl⟩] at honce
  simp at honce

end multiplex_controller_bindings.route_plan
