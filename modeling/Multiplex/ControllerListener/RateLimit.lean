-- The limit on failed authentications, counted for each source apart. The table
-- of sources is bounded: a new source takes the place of the one whose last
-- failure is the oldest.
import Mathlib.Data.List.MinMax
import Multiplex.ControllerListener.Handshake
import Multiplex.Lib.Expiring
import Multiplex.Lib.Windows

open Checks Expiring

namespace multiplex_controller_listener.rate_limit

def MAX_SOURCE_BUCKETS : Nat := 1024

inductive ControllerNetworkError where
  | InvalidConnectionBudget

structure ConnectionBudget where
  max_unauthenticated : Nat
  max_authenticated_per_host : Nat
  handshake_timeout_seconds : Nat
  max_control_frame_bytes : Nat
  max_terminal_frame_bytes : Nat
  max_queue_frames : Nat
  max_queue_payload_bytes : Nat
  failed_auth_attempts : Nat
  failed_auth_window_seconds : Nat
  deriving DecidableEq

namespace ConnectionBudget

def default : ConnectionBudget where
  max_unauthenticated := 4
  max_authenticated_per_host := 16
  handshake_timeout_seconds := 30
  max_control_frame_bytes := 64 * 1024
  max_terminal_frame_bytes := 1024 * 1024
  max_queue_frames := 64
  max_queue_payload_bytes := 4 * 1024 * 1024
  failed_auth_attempts := 5
  failed_auth_window_seconds := 10 * 60

def validate (budget : ConnectionBudget) : Except ControllerNetworkError Unit :=
  refuseIf .InvalidConnectionBudget (budget ≠ default)

end ConnectionBudget

/-! ## The limiter -/

/-- The failures of each source, the oldest first. -/
abbrev Failures (β : Type) := Entries β (List Nat)

structure AuthRateLimiter (β : Type) where
  failures : Failures β
  budget : ConnectionBudget

variable {β : Type} [DecidableEq β]

namespace AuthRateLimiter

def new (budget : ConnectionBudget) : Except ControllerNetworkError (AuthRateLimiter β) := do
  budget.validate
  return ⟨∅, budget⟩

def expire (limiter : AuthRateLimiter β) (source : β) (now_seconds : Nat) : AuthRateLimiter β :=
  let window := limiter.budget.failed_auth_window_seconds
  match limiter.failures.lookup source with
  | none => limiter
  | some timestamps =>
    let timestamps := timestamps.dropWhile fun timestamp => window ≤ now_seconds - timestamp
    if timestamps = [] then { limiter with failures := limiter.failures.erase source }
    else { limiter with failures := limiter.failures.insert source timestamps }

def check (limiter : AuthRateLimiter β) (source : β) (now_seconds : Nat) :
    Listened Unit × AuthRateLimiter β :=
  let limiter := limiter.expire source now_seconds
  if (limiter.failures.lookup source).any fun timestamps =>
      limiter.budget.failed_auth_attempts ≤ timestamps.length then
    (.error (.new .RateLimited), limiter)
  else (.ok (), limiter)

/-- The last failure of a source, as the table knows it. -/
def last (entry : Σ _ : β, List Nat) : Nat := entry.2.getLast?.getD 0

/-- The source that leaves a full table. The table is a hash map, gone through in
an order of its own, and of several oldest sources the first one leaves. -/
def oldest (order : Failures β → List (Σ _ : β, List Nat)) (failures : Failures β) : Option β :=
  ((order failures).argmin last).map Sigma.fst

def evict_oldest (order : Failures β → List (Σ _ : β, List Nat)) (failures : Failures β) :
    Failures β :=
  match oldest order failures with
  | none => failures
  | some source => failures.erase source

def record_failure (limiter : AuthRateLimiter β) (source : β) (now_seconds : Nat)
    (order : Failures β → List (Σ _ : β, List Nat)) : Listened Unit × AuthRateLimiter β :=
  let limiter := limiter.expire source now_seconds
  let failures :=
    if source ∉ limiter.failures ∧ MAX_SOURCE_BUCKETS ≤ len limiter.failures then
      evict_oldest order limiter.failures
    else limiter.failures
  let timestamps := (failures.lookup source).getD []
  let limiter := { limiter with failures := failures.insert source (timestamps ++ [now_seconds]) }
  limiter.check source now_seconds

def record_success (limiter : AuthRateLimiter β) (source : β) : AuthRateLimiter β :=
  { limiter with failures := limiter.failures.erase source }

end AuthRateLimiter

open AuthRateLimiter

/-! ## Runs -/

/-- A call, with the time that it reads, and with the order in which it would go
through the table. -/
inductive Call (β : Type) where
  | check (source : β) (now_seconds : Nat)
  | record_failure (source : β) (now_seconds : Nat) (order : Failures β → List (Σ _ : β, List Nat))
  | record_success (source : β)

def Call.time : Call β → Option Nat
  | .check _ now_seconds => some now_seconds
  | .record_failure _ now_seconds _ => some now_seconds
  | .record_success _ => none

/-- The order is an order of the whole table. -/
def Call.Ordered : Call β → Prop
  | .record_failure _ _ order => ∀ failures, (order failures).Perm failures.entries
  | _ => True

/-- The source that a failure would push out of the table. -/
def evicted (limiter : AuthRateLimiter β) (source : β) (now_seconds : Nat)
    (order : Failures β → List (Σ _ : β, List Nat)) : Option β :=
  let failures := (limiter.expire source now_seconds).failures
  if source ∉ failures ∧ MAX_SOURCE_BUCKETS ≤ len failures then oldest order failures else none

/-- The limiter, and the failures of each source since its last success or since it
was last pushed out of the table. -/
structure World (β : Type) where
  limiter : AuthRateLimiter β
  recorded : β → List Nat

def World.exec (w : World β) : Call β → World β
  | .check source now_seconds => ⟨(w.limiter.check source now_seconds).2, w.recorded⟩
  | .record_failure source now_seconds order =>
    let recorded :=
      match evicted w.limiter source now_seconds order with
      | none => w.recorded
      | some oldest => Function.update w.recorded oldest []
    ⟨(w.limiter.record_failure source now_seconds order).2,
      Function.update recorded source (recorded source ++ [now_seconds])⟩
  | .record_success source =>
    ⟨w.limiter.record_success source, Function.update w.recorded source []⟩

def World.run (w : World β) (calls : List (Call β)) : World β := calls.foldl World.exec w

/-! ## The table -/

omit [DecidableEq β] in
theorem len_eq (failures : Failures β) : len failures = failures.keys.length :=
  (List.length_map _).symm

variable {failures : Failures β}

theorem len_erase {source : β} (h : source ∈ failures) :
    len (failures.erase source) + 1 = len failures := by
  have hmem := AList.mem_keys.mp h
  have hpos := List.length_pos_of_mem hmem
  rw [len_eq, len_eq, AList.keys_erase, List.length_erase_of_mem hmem]
  omega

theorem len_erase_le (failures : Failures β) (source : β) :
    len (failures.erase source) ≤ len failures := by
  rw [len_eq, len_eq, AList.keys_erase]
  exact List.length_erase_le

variable (timestamps : List Nat)

theorem len_insert {source : β} (h : source ∈ failures) :
    len (failures.insert source timestamps) = len failures := by
  have hmem := AList.mem_keys.mp h
  have hpos := List.length_pos_of_mem hmem
  rw [len_eq, len_eq, AList.keys_insert, List.length_cons, List.length_erase_of_mem hmem]
  omega

theorem len_insert_new {source : β} (h : source ∉ failures) :
    len (failures.insert source timestamps) = len failures + 1 := by
  have hmem : source ∉ failures.keys := fun hmem => h (AList.mem_keys.mpr hmem)
  rw [len_eq, len_eq, AList.keys_insert, List.length_cons, List.erase_of_not_mem hmem]

variable {order : Failures β → List (Σ _ : β, List Nat)}

theorem oldest_some {source : β} (horder : (order failures).Perm failures.entries)
    (h : oldest order failures = some source) : ∃ timestamps,
      failures.lookup source = some timestamps ∧
      ∀ other timestamps', failures.lookup other = some timestamps' →
        last ⟨source, timestamps⟩ ≤ last ⟨other, timestamps'⟩ := by
  obtain ⟨⟨source', timestamps⟩, hmin, rfl⟩ := Option.map_eq_some_iff.mp h
  refine ⟨timestamps, ?_, ?_⟩
  · exact AList.mem_lookup_iff.mpr (horder.mem_iff.mp (List.argmin_mem hmin))
  · intro other timestamps' hother
    apply List.le_of_mem_argmin _ hmin
    exact horder.mem_iff.mpr (AList.mem_lookup_iff.mp hother)

omit [DecidableEq β] in
theorem oldest_none (horder : (order failures).Perm failures.entries)
    (h : oldest order failures = none) : len failures = 0 := by
  have hempty := List.argmin_eq_none.mp (Option.map_eq_none_iff.mp h)
  rw [hempty] at horder
  rw [len, ← horder.length_eq, List.length_nil]

/-! ## What one call keeps -/

/-- By the time `now`, the queue of each source holds its failures but for those that
are too old. -/
structure Counted (now : Nat) (limiter : AuthRateLimiter β) (recorded : β → List Nat) : Prop where
  queues : ∀ source, Windows.Holds id limiter.budget.failed_auth_window_seconds now
    (recorded source) ((limiter.failures.lookup source).getD [])
  filled : ∀ source, limiter.failures.lookup source ≠ some []
  bounded : len limiter.failures ≤ MAX_SOURCE_BUCKETS

section
variable {limiter : AuthRateLimiter β} {recorded : β → List Nat} {now : Nat} {source : β}

variable {now' : Nat}

theorem Counted.later (h : Counted now limiter recorded) (hle : now ≤ now') :
    Counted now' limiter recorded :=
  ⟨fun source => (h.queues source).later hle, h.filled, h.bounded⟩

theorem expire_budget (limiter : AuthRateLimiter β) (source : β) (now : Nat) :
    (limiter.expire source now).budget = limiter.budget := by
  unfold expire
  split
  · rfl
  · dsimp only
    split <;> rfl

theorem expire_lookup_other {other : β} (hne : other ≠ source) :
    (limiter.expire source now).failures.lookup other = limiter.failures.lookup other := by
  unfold expire
  split
  · rfl
  · dsimp only
    split
    · exact AList.lookup_erase_ne hne
    · exact AList.lookup_insert_ne hne

theorem expire_lookup : ((limiter.expire source now).failures.lookup source).getD [] =
    Windows.prune id limiter.budget.failed_auth_window_seconds now
      ((limiter.failures.lookup source).getD []) := by
  unfold expire
  cases hlookup : limiter.failures.lookup source with
  | none =>
    simp only [hlookup]
    rfl
  | some timestamps =>
    simp only
    split
    · rename_i hempty
      rw [AList.lookup_erase]
      exact hempty.symm
    · rw [AList.lookup_insert]
      rfl

section
variable (h : Counted now limiter recorded)
include h

theorem Counted.expire (source : β) :
    Counted now (limiter.expire source now) recorded where
  queues other := by
    rw [expire_budget]
    by_cases heq : other = source
    · rw [heq, expire_lookup]
      exact (h.queues source).prune
    · rw [expire_lookup_other heq]
      exact h.queues other
  filled other := by
    by_cases heq : other = source
    · subst heq
      unfold AuthRateLimiter.expire
      split
      · exact h.filled other
      · dsimp only
        split
        · rw [AList.lookup_erase]
          exact (Option.some_ne_none _).symm
        · rename_i hfilled
          rw [AList.lookup_insert]
          exact fun hempty => hfilled (Option.some.inj hempty)
    · rw [expire_lookup_other heq]
      exact h.filled other
  bounded := by
    unfold AuthRateLimiter.expire
    split
    · exact h.bounded
    · rename_i timestamps hlookup
      dsimp only
      split
      · exact (len_erase_le _ _).trans h.bounded
      · rw [len_insert _ (AList.lookup_isSome.mp (by rw [hlookup]; rfl))]
        exact h.bounded

theorem Counted.erase (source : β) :
    Counted now { limiter with failures := limiter.failures.erase source }
      (Function.update recorded source []) where
  queues other := by
    by_cases heq : other = source
    · subst heq
      rw [Function.update_self, AList.lookup_erase]
      exact Windows.Holds.empty _ _
    · rw [Function.update_of_ne heq, AList.lookup_erase_ne heq]
      exact h.queues other
  filled other := by
    by_cases heq : other = source
    · subst heq
      rw [AList.lookup_erase]
      exact (Option.some_ne_none _).symm
    · rw [AList.lookup_erase_ne heq]
      exact h.filled other
  bounded := (len_erase_le _ _).trans h.bounded

theorem Counted.push (source : β)
    (hroom : source ∈ limiter.failures ∨ len limiter.failures < MAX_SOURCE_BUCKETS) :
    Counted now { limiter with
        failures := limiter.failures.insert source
          ((limiter.failures.lookup source).getD [] ++ [now]) }
      (Function.update recorded source (recorded source ++ [now])) where
  queues other := by
    by_cases heq : other = source
    · subst heq
      rw [Function.update_self, AList.lookup_insert]
      exact (h.queues other).push rfl
    · rw [Function.update_of_ne heq, AList.lookup_insert_ne heq]
      exact h.queues other
  filled other := by
    by_cases heq : other = source
    · subst heq
      rw [AList.lookup_insert]
      exact fun hempty => List.append_ne_nil_of_right_ne_nil _ (List.cons_ne_nil _ _)
        (Option.some.inj hempty)
    · rw [AList.lookup_insert_ne heq]
      exact h.filled other
  bounded := by
    by_cases hmem : source ∈ limiter.failures
    · rw [len_insert _ hmem]
      exact h.bounded
    · rw [len_insert_new _ hmem]
      exact hroom.resolve_left hmem

theorem Counted.evict {order : Failures β → List (Σ _ : β, List Nat)}
    (horder : (order limiter.failures).Perm limiter.failures.entries) :
    Counted now { limiter with failures := evict_oldest order limiter.failures }
        (match oldest order limiter.failures with
          | none => recorded
          | some oldest => Function.update recorded oldest []) ∧
      len (evict_oldest order limiter.failures) < MAX_SOURCE_BUCKETS := by
  unfold evict_oldest
  cases holdest : oldest order limiter.failures with
  | none =>
    refine ⟨h, ?_⟩
    rw [oldest_none horder holdest]
    decide
  | some source =>
    obtain ⟨timestamps, hlookup, -⟩ := oldest_some horder holdest
    have hmem : source ∈ limiter.failures := AList.lookup_isSome.mp (by rw [hlookup]; rfl)
    have hlen := len_erase hmem
    have hbounded := h.bounded
    refine ⟨h.erase source, ?_⟩
    change len (limiter.failures.erase source) < _
    omega

end

theorem exec_counted {w : World β} (h : Counted now w.limiter w.recorded) {call : Call β}
    (horder : call.Ordered) (hnow : now ≤ now') (htime : ∀ t ∈ call.time, t = now') :
    Counted now' (w.exec call).limiter (w.exec call).recorded := by
  have hlater := h.later hnow
  cases call with
  | check source now_seconds =>
    obtain rfl := htime now_seconds rfl
    have hexpire := hlater.expire source
    simp only [World.exec, AuthRateLimiter.check]
    split <;> exact hexpire
  | record_success source => exact hlater.erase source
  | record_failure source now_seconds order =>
    obtain rfl := htime now_seconds rfl
    have hexpire := hlater.expire source
    let expired := w.limiter.expire source now_seconds
    have hchecked : ∀ limiter recorded, Counted now_seconds limiter recorded →
        Counted now_seconds (AuthRateLimiter.check limiter source now_seconds).2 recorded := by
      intro limiter recorded hcounted
      have hagain := hcounted.expire source
      unfold AuthRateLimiter.check
      dsimp only
      split <;> exact hagain
    simp only [World.exec, evicted, AuthRateLimiter.record_failure]
    by_cases hfull : source ∉ expired.failures ∧ MAX_SOURCE_BUCKETS ≤ len expired.failures
    · obtain ⟨hevict, hroom⟩ := hexpire.evict (horder expired.failures)
      rw [if_pos hfull, if_pos hfull]
      exact hchecked _ _ (hevict.push source (.inr hroom))
    · rw [if_neg hfull, if_neg hfull]
      apply hchecked _ _ (hexpire.push source _)
      rw [not_and, not_le] at hfull
      exact or_iff_not_imp_left.mpr hfull

end

/-- The calls read a clock that does not go back, after `now`. -/
def Clocked (now : Nat) (calls : List (Call β)) : Prop :=
  (now :: calls.filterMap Call.time).Pairwise (· ≤ ·)

theorem check_budget (limiter : AuthRateLimiter β) (source : β) (now : Nat) :
    (limiter.check source now).2.budget = limiter.budget := by
  unfold AuthRateLimiter.check
  dsimp only
  split <;> exact expire_budget limiter source now

theorem run_budget (w : World β) (calls : List (Call β)) :
    (w.run calls).limiter.budget = w.limiter.budget := by
  induction calls generalizing w with
  | nil => rfl
  | cons call calls ih =>
    have hexec : (w.exec call).limiter.budget = w.limiter.budget := by
      cases call with
      | check source now_seconds => exact check_budget _ _ _
      | record_success source => rfl
      | record_failure source now_seconds order =>
        exact (check_budget _ _ _).trans (expire_budget _ _ _)
    exact (ih _).trans hexec

theorem run_counted {w : World β} {calls : List (Call β)} {now : Nat}
    (h : Counted now w.limiter w.recorded) (horder : ∀ call ∈ calls, call.Ordered)
    (hclock : Clocked now calls) {later : Nat} (hnow : now ≤ later)
    (hlater : ∀ t ∈ calls.filterMap Call.time, t ≤ later) :
    Counted later (w.run calls).limiter (w.run calls).recorded := by
  induction calls generalizing w now with
  | nil => exact h.later hnow
  | cons call calls ih =>
    have hrest : ∀ call' ∈ calls, call'.Ordered :=
      fun call' hcall' => horder call' (List.mem_cons_of_mem _ hcall')
    unfold Clocked at hclock
    cases htime : call.time with
    | none =>
      rw [List.filterMap_cons_none htime] at hclock hlater
      apply ih _ hrest hclock hnow hlater
      exact exec_counted h (horder call List.mem_cons_self) le_rfl (by simp [htime])
    | some t =>
      rw [List.filterMap_cons_some htime] at hclock hlater
      obtain ⟨hfirst, htail⟩ := List.pairwise_cons.mp hclock
      apply ih _ hrest htail (hlater t List.mem_cons_self)
      · exact fun t' ht' => hlater t' (List.mem_cons_of_mem _ ht')
      · apply exec_counted h (horder call List.mem_cons_self) (hfirst t List.mem_cons_self)
        rw [htime]
        rintro t' ⟨⟩
        rfl

/-! ## What the limiter promises -/

section
variable {limiter : AuthRateLimiter β} {recorded : β → List Nat} {now : Nat}

section
variable (h : Counted now limiter recorded)
include h

theorem check_refuses_iff (hattempts : 0 < limiter.budget.failed_auth_attempts) (source : β) :
    (limiter.check source now).1 = .error (.new .RateLimited) ↔
      limiter.budget.failed_auth_attempts ≤
        (Windows.recent id limiter.budget.failed_auth_window_seconds now
          (recorded source)).length := by
  have hqueue := (h.queues source).pruned
  rw [← hqueue, ← expire_lookup]
  unfold AuthRateLimiter.check
  simp only [expire_budget]
  cases hlookup : (limiter.expire source now).failures.lookup source with
  | none =>
    simp only [Option.any_none, Bool.false_eq_true, if_false, Option.getD_none, List.length_nil]
    constructor
    · intro h
      cases h
    · omega
  | some timestamps =>
    simp
    split
    · rename_i hmany
      exact ⟨fun _ => hmany, fun _ => rfl⟩
    · rename_i hfew
      constructor
      · intro h
        cases h
      · exact fun hmany => absurd hmany hfew

theorem last_recorded {source : β} {timestamps : List Nat}
    (hlookup : limiter.failures.lookup source = some timestamps) :
    (recorded source).getLast? = some (last ⟨source, timestamps⟩) := by
  obtain ⟨dropped, hsplit, -⟩ := (h.queues source).kept
  have hfilled : timestamps ≠ [] := by
    rintro rfl
    exact h.filled source hlookup
  rw [hlookup, Option.getD_some] at hsplit
  rw [hsplit, List.getLast?_append_of_ne_nil _ hfilled]
  unfold last
  rw [List.getLast?_eq_some_getLast hfilled]
  rfl

theorem evicted_is_oldest {source other : β} {order : Failures β → List (Σ _ : β, List Nat)}
    (horder : ∀ failures, (order failures).Perm failures.entries)
    (hevicted : evicted limiter source now order = some other) :
    len (limiter.expire source now).failures = MAX_SOURCE_BUCKETS ∧ other ≠ source ∧
      ∀ third ∈ (limiter.expire source now).failures,
        ∃ t t', (recorded other).getLast? = some t ∧ (recorded third).getLast? = some t' ∧
          t ≤ t' := by
  have hexpire := h.expire source
  unfold evicted at hevicted
  dsimp only at hevicted
  split at hevicted
  · rename_i hfull
    obtain ⟨timestamps, hlookup, hleast⟩ := oldest_some (horder _) hevicted
    have hother : other ∈ (limiter.expire source now).failures :=
      AList.lookup_isSome.mp (by rw [hlookup]; rfl)
    refine ⟨le_antisymm hexpire.bounded hfull.2, ?_, ?_⟩
    · rintro rfl
      exact hfull.1 hother
    · intro third hthird
      obtain ⟨timestamps', hlookup'⟩ := Option.isSome_iff_exists.mp (AList.lookup_isSome.mpr hthird)
      exact ⟨_, _, last_recorded hexpire hlookup, last_recorded hexpire hlookup',
        hleast third timestamps' hlookup'⟩
  · cases hevicted

end

end

/-- A source is refused exactly for its recent failures, of those since its last
success and since it was last pushed out. It is pushed out only of a full table, and
only where no last failure in the table is older than its own. -/
theorem sources_are_limited {budget : ConnectionBudget} {limiter : AuthRateLimiter β}
    (hnew : AuthRateLimiter.new budget = .ok limiter) (calls : List (Call β))
    (horder : ∀ call ∈ calls, call.Ordered) (hclock : Clocked 0 calls)
    (now : Nat) (hnow : ∀ t ∈ calls.filterMap Call.time, t ≤ now) :
    let w := World.run ⟨limiter, fun _ => []⟩ calls
    (∀ source, (w.limiter.check source now).1 = .error (.new .RateLimited) ↔
      budget.failed_auth_attempts ≤ (Windows.recent id budget.failed_auth_window_seconds now
        (w.recorded source)).length) ∧
    len w.limiter.failures ≤ MAX_SOURCE_BUCKETS ∧
    ∀ source other order, (∀ failures, (order failures).Perm failures.entries) →
      evicted w.limiter source now order = some other →
      len (w.limiter.expire source now).failures = MAX_SOURCE_BUCKETS ∧ other ≠ source ∧
      ∀ third ∈ (w.limiter.expire source now).failures,
        ∃ t t', (w.recorded other).getLast? = some t ∧ (w.recorded third).getLast? = some t' ∧
          t ≤ t' := by
  intro w
  have hstart : Counted 0 limiter fun _ => [] := by
    unfold AuthRateLimiter.new at hnew
    simp only [bind_ok_iff, pure_ok_iff] at hnew
    obtain ⟨-, -, rfl⟩ := hnew
    exact ⟨fun _ => Windows.Holds.empty _ _, fun _ => by simp, Nat.zero_le _⟩
  have hbudget : limiter.budget = budget ∧ budget = .default := by
    unfold AuthRateLimiter.new ConnectionBudget.validate at hnew
    simp only [bind_ok_iff, pure_ok_iff, refuseIf_ok_iff, not_not] at hnew
    obtain ⟨-, hdefault, rfl⟩ := hnew
    exact ⟨rfl, hdefault⟩
  have hcounted : Counted now w.limiter w.recorded :=
    run_counted (w := ⟨limiter, fun _ => []⟩) hstart horder hclock (Nat.zero_le now) hnow
  have hsame : w.limiter.budget = budget := (run_budget _ calls).trans hbudget.1
  refine ⟨fun source => ?_, hcounted.bounded, ?_⟩
  · rw [← hsame]
    apply check_refuses_iff hcounted
    rw [hsame, hbudget.2]
    decide
  · intro source other order hperm hevicted
    exact evicted_is_oldest hcounted hperm hevicted

/-! ## A full table -/

def idle : World Nat := ⟨⟨∅, .default⟩, fun _ => []⟩

/-- A failure, with a table that is gone through as it is kept. -/
def fails (source now : Nat) : Call Nat := .record_failure source now AList.entries

theorem fails_ordered {source now : Nat} : (fails source now).Ordered :=
  fun failures => List.Perm.refl failures.entries

theorem new_default : AuthRateLimiter.new .default = .ok (⟨∅, .default⟩ : AuthRateLimiter Nat) := rfl

/-- Two sources fail in turns, one of them once more than the other. -/
def failures_in_turns : List (Call Nat) :=
  (List.replicate 4 [fails 7 0, fails 8 0]).flatten ++ [fails 7 0]

theorem fifth_failure_is_refused :
    ((idle.run failures_in_turns).limiter.check 7 5).1 = .error (.new .RateLimited) ∧
      ((idle.run failures_in_turns).limiter.check 8 5).1 ≠ .error (.new .RateLimited) := by
  have hordered : ∀ call ∈ failures_in_turns, call.Ordered := by
    simp [failures_in_turns, fails_ordered]
  have hlimited := (sources_are_limited new_default failures_in_turns hordered
    (by unfold Clocked; decide) 5 (by decide)).1
  exact ⟨(hlimited 7).mpr (by decide +kernel), (hlimited 8).not.mpr (by decide +kernel)⟩

/-- The failures of a source since its last success, whatever the table did. -/
def sinceSuccess (source : Nat) (calls : List (Call Nat)) : List Nat :=
  calls.foldl noted []
where
  noted (failures : List Nat) : Call Nat → List Nat
    | .check _ _ => failures
    | .record_failure other now _ => if other = source then failures ++ [now] else failures
    | .record_success other => if other = source then [] else failures

/-- The first source has failed five times, and the next `n` sources once each. -/
structure Crowded (n : Nat) (limiter : AuthRateLimiter Nat) : Prop where
  first : limiter.failures.lookup 0 = some [0, 0, 0, 0, 0]
  others : ∀ k, 0 < k → k ≤ n → limiter.failures.lookup k = some [1]
  rest : ∀ k, n < k → limiter.failures.lookup k = none
  full : len limiter.failures = n + 1
  budget : limiter.budget = .default

theorem check_after_first {failures : Failures Nat} {source now : Nat} :
    (AuthRateLimiter.check ⟨failures.insert source [now], .default⟩ source now).2 =
      ⟨failures.insert source [now], .default⟩ := by
  have hexpire : AuthRateLimiter.expire ⟨failures.insert source [now], .default⟩ source now =
      ⟨failures.insert source [now], .default⟩ := by
    unfold AuthRateLimiter.expire
    simp only [AList.lookup_insert]
    rw [List.dropWhile_cons_of_neg (by simp [ConnectionBudget.default]),
      if_neg (List.cons_ne_nil _ _), AList.insert_insert]
  unfold AuthRateLimiter.check
  dsimp only
  rw [hexpire]
  split <;> rfl

variable {n : Nat} {w : World Nat}

theorem crowded_next (h : Crowded n w.limiter) (hroom : n + 1 < MAX_SOURCE_BUCKETS) :
    Crowded (n + 1) (w.exec (fails (n + 1) 1)).limiter := by
  have hnone := h.rest (n + 1) (Nat.lt_succ_self n)
  have hnew : n + 1 ∉ w.limiter.failures := AList.lookup_eq_none.mp hnone
  have hexpire : w.limiter.expire (n + 1) 1 = w.limiter := by
    unfold AuthRateLimiter.expire
    rw [hnone]
  have hfull : ¬ (n + 1 ∉ w.limiter.failures ∧ MAX_SOURCE_BUCKETS ≤ len w.limiter.failures) := by
    rw [h.full]
    omega
  have hlimiter : (w.exec (fails (n + 1) 1)).limiter =
      ⟨w.limiter.failures.insert (n + 1) [1], .default⟩ := by
    rw [← check_after_first]
    simp [World.exec, fails, AuthRateLimiter.record_failure, hexpire, if_neg hfull, hnone, h.budget]
  rw [hlimiter]
  refine ⟨?_, ?_, ?_, ?_, rfl⟩
  · rw [AList.lookup_insert_ne (by omega), h.first]
  · intro k hpos hle
    by_cases heq : k = n + 1
    · rw [heq, AList.lookup_insert]
    · rw [AList.lookup_insert_ne heq, h.others k hpos (by omega)]
  · intro k hlt
    rw [AList.lookup_insert_ne (by omega), h.rest k (by omega)]
  · exact (len_insert_new _ hnew).trans (by rw [h.full])

/-- Five failures of the first source, and then one each of `n` others. -/
def crowd (n : Nat) : List (Call Nat) :=
  List.replicate 5 (fails 0 0) ++ (List.range n).map fun k => fails (k + 1) 1

theorem crowd_succ (n : Nat) : crowd (n + 1) = crowd n ++ [fails (n + 1) 1] := by
  unfold crowd
  rw [List.range_succ, List.map_append, List.append_assoc]
  rfl

theorem crowd_crowded (h : n < MAX_SOURCE_BUCKETS) : Crowded n (idle.run (crowd n)).limiter := by
  induction n with
  | zero =>
    have hfive : (idle.run (crowd 0)).limiter = ⟨AList.singleton 0 [0, 0, 0, 0, 0], .default⟩ := by
      rfl
    rw [hfive]
    refine ⟨rfl, by omega, fun k hk => ?_, rfl, rfl⟩
    rw [AList.lookup_eq_none, ← AList.insert_empty, AList.mem_insert]
    simp
    omega
  | succ n ih =>
    rw [crowd_succ, World.run, List.foldl_append]
    exact crowded_next (ih (by omega)) h

theorem crowd_times (n : Nat) :
    (crowd n).filterMap Call.time = List.replicate 5 0 ++ List.replicate n 1 := by
  induction n with
  | zero => rfl
  | succ n ih =>
    have hlast : List.replicate (n + 1) 1 = List.replicate n 1 ++ [1] := List.replicate_succ'
    rw [crowd_succ, List.filterMap_append, ih, hlast, ← List.append_assoc]
    rfl

theorem crowd_clocked (n : Nat) : Clocked 0 (crowd n) := by
  unfold Clocked
  rw [crowd_times, List.pairwise_cons, List.pairwise_append]
  refine ⟨fun _ _ => Nat.zero_le _, List.pairwise_replicate.mpr (.inr le_rfl),
    List.pairwise_replicate.mpr (.inr le_rfl), ?_⟩
  intro t ht t' _
  rw [List.eq_of_mem_replicate ht]
  exact Nat.zero_le _

theorem crowd_since (n : Nat) : sinceSuccess 0 (crowd n) = [0, 0, 0, 0, 0] := by
  induction n with
  | zero => rfl
  | succ n ih =>
    rw [crowd_succ, sinceSuccess, List.foldl_append]
    change sinceSuccess.noted 0 (sinceSuccess 0 (crowd n)) (fails (n + 1) 1) = _
    rw [ih]
    simp [sinceSuccess.noted, fails]

theorem crowded_full (h : Crowded n w.limiter) (hn : n + 1 = MAX_SOURCE_BUCKETS) :
    (w.exec (fails (n + 1) 1)).limiter.failures.lookup 0 = none := by
  have hnone := h.rest (n + 1) (Nat.lt_succ_self n)
  have hexpire : w.limiter.expire (n + 1) 1 = w.limiter := by
    unfold AuthRateLimiter.expire
    rw [hnone]
  have hfull : n + 1 ∉ w.limiter.failures ∧ MAX_SOURCE_BUCKETS ≤ len w.limiter.failures :=
    ⟨AList.lookup_eq_none.mp hnone, by rw [h.full, hn]⟩
  have hevict : evict_oldest AList.entries w.limiter.failures = w.limiter.failures.erase 0 := by
    unfold evict_oldest
    cases holdest : oldest AList.entries w.limiter.failures with
    | none =>
      have hempty := oldest_none (List.Perm.refl _) holdest
      rw [h.full] at hempty
      cases hempty
    | some source =>
      obtain ⟨timestamps, hlookup, hleast⟩ := oldest_some (List.Perm.refl _) holdest
      have hlast := hleast 0 _ h.first
      rcases Nat.eq_zero_or_pos source with rfl | hpos
      · rfl
      · rcases Nat.lt_or_ge n source with hrest | hother
        · rw [h.rest source hrest] at hlookup
          cases hlookup
        · rw [h.others source hpos hother] at hlookup
          cases hlookup
          exact absurd (show 1 ≤ 0 from hlast) (by decide)
  have hlimiter : (w.exec (fails (n + 1) 1)).limiter =
      ⟨(w.limiter.failures.erase 0).insert (n + 1) [1], .default⟩ := by
    have hnone' : (w.limiter.failures.erase 0).lookup (n + 1) = none := by
      rw [AList.lookup_erase_ne (Nat.succ_ne_zero n), hnone]
    rw [← check_after_first]
    simp [World.exec, fails, AuthRateLimiter.record_failure, hexpire, if_pos hfull,
        hevict, hnone', h.budget]
  rw [hlimiter, AList.lookup_insert_ne (Nat.succ_ne_zero n).symm, AList.lookup_erase]

/-- The first source leaves the table for the last one, and may try again. -/
theorem full_table_forgets_a_source :
    ¬ ∀ (calls : List (Call Nat)) (source now : Nat), (∀ call ∈ calls, call.Ordered) →
      Clocked 0 calls → (∀ t ∈ calls.filterMap Call.time, t ≤ now) →
      ConnectionBudget.default.failed_auth_attempts ≤
        (Windows.recent id ConnectionBudget.default.failed_auth_window_seconds now
          (sinceSuccess source calls)).length →
      ((idle.run calls).limiter.check source now).1 = .error (.new .RateLimited) := by
  intro h
  obtain ⟨n, hn⟩ : ∃ n, n + 1 = MAX_SOURCE_BUCKETS := ⟨1023, rfl⟩
  have hforgotten : (idle.run (crowd (n + 1))).limiter.failures.lookup 0 = none := by
    rw [crowd_succ, World.run, List.foldl_append]
    exact crowded_full (crowd_crowded (by omega)) hn
  have hrefused := h (crowd (n + 1)) 0 1 ?_ (crowd_clocked (n + 1)) ?_ ?_
  · have hexpire : (idle.run (crowd (n + 1))).limiter.expire 0 1 =
        (idle.run (crowd (n + 1))).limiter := by
      unfold AuthRateLimiter.expire
      rw [hforgotten]
    unfold AuthRateLimiter.check at hrefused
    simp only [hexpire, hforgotten] at hrefused
    cases hrefused
  · intro call hcall
    rcases List.mem_append.mp hcall with hcall | hcall
    · rw [List.eq_of_mem_replicate hcall]
      exact fails_ordered
    · obtain ⟨k, -, rfl⟩ := List.mem_map.mp hcall
      exact fails_ordered
  · intro t ht
    rw [crowd_times] at ht
    rcases List.mem_append.mp ht with ht | ht
    · rw [List.eq_of_mem_replicate ht]
      exact Nat.zero_le 1
    · rw [List.eq_of_mem_replicate ht]
  · rw [crowd_since]
    decide

end multiplex_controller_listener.rate_limit
