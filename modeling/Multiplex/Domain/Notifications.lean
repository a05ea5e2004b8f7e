-- What becomes of an event that asks for attention: nothing, a record in the
-- ledger, or a record and a notification of the system. The ledger has a clock of
-- its own that does not go back, whatever the clocks of the machine do.
import Mathlib.Data.List.DropRight
import Multiplex.Domain.Sessions
import Multiplex.Lib.Windows

open Checks

namespace multiplex_domain.notification

open controller_devices (is_control)
open session

def MAX_NOTIFICATION_KEYS : Nat := 256
def MAX_NOTIFICATION_RECORDS : Nat := 256
def NOTIFICATION_KEY_TTL_MILLIS : Nat := 24 * 60 * 60 * 1000
def NOTIFICATION_RATE_WINDOW_MILLIS : Nat := 60 * 60 * 1000
def NOTIFICATION_COALESCE_WINDOW_MILLIS : Nat := 30 * 1000
def ABSOLUTE_OS_NOTIFICATIONS_PER_HOUR : Nat := 60
def COALESCE_AFTER_EVENTS : Nat := 5
def MAX_NOTIFICATION_TITLE_SCALARS : Nat := 160

/-! ## Events -/

inductive NotificationMode where
  | Off
  | InApp
  | Os
  deriving DecidableEq

inductive PermissionState where
  | Unknown
  | Granted
  | Denied
  | Unavailable
  deriving DecidableEq

inductive NotificationActivity where
  | NeedsInput
  | Done
  | Failed
  deriving DecidableEq

inductive NotificationError where
  | IneligibleActivity
  | InvalidEvent
  | InvalidTitle
  | ResourceLimit
  deriving DecidableEq

def NotificationActivity.try_from : ActivityState → Except NotificationError NotificationActivity
  | .NeedsInput => .ok .NeedsInput
  | .Done => .ok .Done
  | .Failed => .ok .Failed
  | _ => .error .IneligibleActivity

structure NotificationKey where
  session_id : HostedSessionId
  generation : Nat
  activity : NotificationActivity
  activity_sequence : Nat
  deriving DecidableEq

structure NotificationEvent where
  session_id : HostedSessionId
  generation : Nat
  activity : ActivityState
  activity_sequence : Nat

def NotificationEvent.key (event : NotificationEvent) :
    Except NotificationError NotificationKey := do
  refuseIf .InvalidEvent (event.generation = 0 ∨ event.activity_sequence = 0)
  let activity ← NotificationActivity.try_from event.activity
  return ⟨event.session_id, event.generation, activity, event.activity_sequence⟩

structure NotificationPolicy where
  mode : NotificationMode
  permission : PermissionState
  os_rate_limit_per_hour : Nat

/-- The limit of a policy, which is from 1 to the absolute one. -/
def NotificationPolicy.configured_limit (policy : NotificationPolicy) : Nat :=
  max 1 (min policy.os_rate_limit_per_hour ABSOLUTE_OS_NOTIFICATIONS_PER_HOUR)

abbrev SessionDeepLink := Nat

def normalize_title (value : List Char) : Except NotificationError (List Char) :=
  let value := trim value
  if value.length = 0 ∨ MAX_NOTIFICATION_TITLE_SCALARS < value.length ∨ value.any is_control then
    .error .InvalidTitle
  else .ok value

/-! ## The ledger -/

structure NotificationRecord where
  key : NotificationKey
  title : List Char
  created_at_millis : Nat
  deep_link : SessionDeepLink
  dismissed : Bool
  deriving DecidableEq

def NotificationRecord.validate (record : NotificationRecord) : Except NotificationError Unit := do
  let _ ← normalize_title record.title
  refuseIf .InvalidEvent (record.key.generation = 0 ∨ record.key.activity_sequence = 0)

structure NotificationClock where
  wall_millis : Nat
  monotonic_millis : Nat
  runtime_epoch_wall_millis : Nat

/-- The sum stays below 2^64. -/
def NotificationClock.conservative_now (clock : NotificationClock) (high_water : Nat) : Nat :=
  max (max clock.wall_millis
    (min (clock.runtime_epoch_wall_millis + clock.monotonic_millis) (2 ^ 64 - 1))) high_water

structure NotificationContext where
  current_generation : Nat
  unread : Bool
  visibly_focused : Bool

structure TimedKey where
  key : NotificationKey
  observed_at_millis : Nat
  deriving DecidableEq

structure OsDeliveryEvidence where
  activity : NotificationActivity
  delivered_at_millis : Nat
  deriving DecidableEq

/-- The records have the newest in front, the other queues the oldest. -/
structure NotificationLedger where
  records : List NotificationRecord
  keys : List TimedKey
  os_deliveries : List OsDeliveryEvidence
  wall_high_water_millis : Nat
  deriving DecidableEq

namespace NotificationLedger

def default : NotificationLedger := ⟨[], [], [], 0⟩

def validate (ledger : NotificationLedger) : Except NotificationError Unit := do
  refuseIf .ResourceLimit (MAX_NOTIFICATION_RECORDS < ledger.records.length ∨
    MAX_NOTIFICATION_KEYS < ledger.keys.length ∨
    ABSOLUTE_OS_NOTIFICATIONS_PER_HOUR < ledger.os_deliveries.length)
  forM ledger.records NotificationRecord.validate

end NotificationLedger

def prune_ledger (ledger : NotificationLedger) (now : Nat) : NotificationLedger :=
  { ledger with
    keys := ledger.keys.dropWhile fun entry =>
      NOTIFICATION_KEY_TTL_MILLIS < now - entry.observed_at_millis
    os_deliveries := ledger.os_deliveries.dropWhile fun entry =>
      NOTIFICATION_RATE_WINDOW_MILLIS ≤ now - entry.delivered_at_millis }

/-! ## The reducer -/

inductive NotificationSuppression where
  | Disabled
  | NotUnread
  | Focused
  | StaleGeneration
  | Duplicate
  | Permission
  | RateLimited
  deriving DecidableEq

inductive PlatformDelivery where
  | Individual
  | CoalescedSummary (event_count : Nat)
  | ReplaceSummary (event_count : Nat)
  deriving DecidableEq

structure NotificationDecision where
  recorded : Bool
  platform : Option PlatformDelivery
  suppression : Option NotificationSuppression
  deriving DecidableEq

def NotificationDecision.suppressed (reason : NotificationSuppression) : NotificationDecision :=
  ⟨false, none, some reason⟩

/-- What the system is asked for, once the event is recorded. -/
def deliver (ledger : NotificationLedger) (policy : NotificationPolicy) (key : NotificationKey)
    (now : Nat) : NotificationDecision × NotificationLedger :=
  if policy.mode ≠ .Os ∨ policy.permission ≠ .Granted then
    (⟨true, none, some .Permission⟩, ledger)
  else
    let hourly_count := ledger.os_deliveries.length
    if ABSOLUTE_OS_NOTIFICATIONS_PER_HOUR ≤ hourly_count then
      (⟨true, none, some .RateLimited⟩, ledger)
    else if policy.configured_limit ≤ hourly_count ∧ key.activity ≠ .NeedsInput then
      (⟨true, none, some .RateLimited⟩, ledger)
    else
      let recent_count := (ledger.os_deliveries.filter fun entry =>
        now - entry.delivered_at_millis ≤ NOTIFICATION_COALESCE_WINDOW_MILLIS).length + 1
      let platform :=
        if policy.configured_limit ≤ hourly_count then .ReplaceSummary recent_count
        else if COALESCE_AFTER_EVENTS < recent_count then .CoalescedSummary recent_count
        else .Individual
      (⟨true, some platform, none⟩,
        { ledger with os_deliveries := ledger.os_deliveries ++ [⟨key.activity, now⟩] })

/-- The event comes into the ledger, which was pruned before. -/
def record (ledger : NotificationLedger) (key : NotificationKey) (title : List Char)
    (deep_link : SessionDeepLink) (now : Nat) : NotificationLedger :=
  { ledger with
    keys := Windows.cap MAX_NOTIFICATION_KEYS (ledger.keys ++ [⟨key, now⟩])
    records := (⟨key, title, now, deep_link, false⟩ :: ledger.records).take
      MAX_NOTIFICATION_RECORDS }

def reduce_notification (ledger : NotificationLedger) (policy : NotificationPolicy)
    (event : NotificationEvent) (title : List Char) (deep_link : SessionDeepLink)
    (context : NotificationContext) (clock : NotificationClock) :
    Except NotificationError NotificationDecision × NotificationLedger :=
  match event.key with
  | .error error => (.error error, ledger)
  | .ok key =>
    if policy.mode = .Off then (.ok (.suppressed .Disabled), ledger)
    else if ¬ context.unread then (.ok (.suppressed .NotUnread), ledger)
    else if context.visibly_focused then (.ok (.suppressed .Focused), ledger)
    else if event.generation ≠ context.current_generation then
      (.ok (.suppressed .StaleGeneration), ledger)
    else
      match normalize_title title with
      | .error error => (.error error, ledger)
      | .ok title =>
        let now := clock.conservative_now ledger.wall_high_water_millis
        let ledger := { ledger with wall_high_water_millis := now }
        let ledger := prune_ledger ledger now
        if ledger.keys.any fun entry => entry.key = key then
          (.ok (.suppressed .Duplicate), ledger)
        else
          let (decision, ledger) := deliver (record ledger key title deep_link now) policy key now
          (.ok decision, ledger)

/-! ## Calls -/

structure NotificationCall where
  policy : NotificationPolicy
  event : NotificationEvent
  title : List Char
  deep_link : SessionDeepLink
  context : NotificationContext
  clock : NotificationClock

def NotificationCall.run (call : NotificationCall) (ledger : NotificationLedger) :
    Except NotificationError NotificationDecision × NotificationLedger :=
  reduce_notification ledger call.policy call.event call.title call.deep_link call.context
    call.clock

def NotificationCall.now (call : NotificationCall) (ledger : NotificationLedger) : Nat :=
  call.clock.conservative_now ledger.wall_high_water_millis

/-- The ledger that an event of the call is looked up in. -/
def NotificationCall.pruned (call : NotificationCall) (ledger : NotificationLedger) :
    NotificationLedger :=
  prune_ledger { ledger with wall_high_water_millis := call.now ledger } (call.now ledger)

/-- The event is not looked at any further. -/
def NotificationSuppression.early : NotificationSuppression → Bool
  | .Disabled | .NotUnread | .Focused | .StaleGeneration => true
  | _ => false

inductive Delivers (ledger : NotificationLedger) (policy : NotificationPolicy)
    (key : NotificationKey) (now : Nat) : NotificationDecision × NotificationLedger → Prop where
  | kept (reason : NotificationSuppression) (late : reason.early = false) :
      Delivers ledger policy key now (⟨true, none, some reason⟩, ledger)
  | delivered (platform : PlatformDelivery)
      (absolute : ledger.os_deliveries.length < ABSOLUTE_OS_NOTIFICATIONS_PER_HOUR)
      (limited : key.activity ≠ .NeedsInput →
        ledger.os_deliveries.length < policy.configured_limit) :
      Delivers ledger policy key now (⟨true, some platform, none⟩,
        { ledger with os_deliveries := ledger.os_deliveries ++ [⟨key.activity, now⟩] })

theorem deliver_cases (ledger : NotificationLedger) (policy : NotificationPolicy)
    (key : NotificationKey) (now : Nat) :
    Delivers ledger policy key now (deliver ledger policy key now) := by
  unfold deliver
  split
  · exact .kept .Permission rfl
  · dsimp only
    split
    · exact .kept .RateLimited rfl
    · rename_i habsolute
      split
      · exact .kept .RateLimited rfl
      · rename_i hlimit
        apply Delivers.delivered
        · exact not_le.mp habsolute
        · intro hactivity
          by_contra hmany
          exact hlimit ⟨not_lt.mp hmany, hactivity⟩

inductive Reduces (call : NotificationCall) (ledger : NotificationLedger) :
    Except NotificationError NotificationDecision × NotificationLedger → Prop where
  | failed (error : NotificationError) : Reduces call ledger (.error error, ledger)
  | suppressed (reason : NotificationSuppression) (early : reason.early = true) :
      Reduces call ledger (.ok (.suppressed reason), ledger)
  | duplicate : Reduces call ledger (.ok (.suppressed .Duplicate), call.pruned ledger)
  | recorded (key : NotificationKey) (event : call.event.key = .ok key)
      (title : List Char) (normal : normalize_title call.title = .ok title)
      (new : key ∉ (call.pruned ledger).keys.map TimedKey.key)
      (decision : NotificationDecision) (ledger' : NotificationLedger)
      (delivers : Delivers (record (call.pruned ledger) key title call.deep_link (call.now ledger))
        call.policy key (call.now ledger) (decision, ledger')) :
      Reduces call ledger (.ok decision, ledger')

theorem run_cases (call : NotificationCall) (ledger : NotificationLedger) :
    Reduces call ledger (call.run ledger) := by
  unfold NotificationCall.run reduce_notification
  cases hkey : call.event.key with
  | error error => exact .failed error
  | ok key =>
    dsimp only
    split
    · exact .suppressed .Disabled rfl
    split
    · exact .suppressed .NotUnread rfl
    split
    · exact .suppressed .Focused rfl
    split
    · exact .suppressed .StaleGeneration rfl
    cases htitle : normalize_title call.title with
    | error error => exact .failed error
    | ok title =>
      dsimp only
      split
      · exact .duplicate
      · rename_i hnew
        apply Reduces.recorded key hkey title htitle
        · intro hmem
          apply hnew
          obtain ⟨entry, hentry, hsame⟩ := List.mem_map.mp hmem
          exact List.any_eq_true.mpr ⟨entry, hentry, by simpa using hsame⟩
        · exact deliver_cases _ _ _ _

/-! ## Runs -/

/-- A ledger with all the notifications of the system and all the keys that it ever
took in, by its own clock. -/
structure World where
  ledger : NotificationLedger
  delivered : List OsDeliveryEvidence
  recorded : List TimedKey

def World.exec (w : World) (call : NotificationCall) : World :=
  let (answer, ledger) := call.run w.ledger
  match answer, call.event.key with
  | .ok decision, .ok key =>
    { ledger
      delivered :=
        if decision.platform.isSome then
          w.delivered ++ [⟨key.activity, ledger.wall_high_water_millis⟩]
        else w.delivered
      recorded :=
        if decision.recorded then w.recorded ++ [⟨key, ledger.wall_high_water_millis⟩]
        else w.recorded }
  | _, _ => { w with ledger }

def World.run (w : World) (calls : List NotificationCall) : World := calls.foldl World.exec w

def World.empty : World := ⟨NotificationLedger.default, [], []⟩

/-! ## What every call keeps -/

/-- The queues of the ledger are the ends of what ever came. -/
structure Kept (w : World) : Prop where
  deliveries : Windows.Holds OsDeliveryEvidence.delivered_at_millis NOTIFICATION_RATE_WINDOW_MILLIS
    w.ledger.wall_high_water_millis w.delivered w.ledger.os_deliveries
  spaced : Windows.Spaced OsDeliveryEvidence.delivered_at_millis ABSOLUTE_OS_NOTIFICATIONS_PER_HOUR
    NOTIFICATION_RATE_WINDOW_MILLIS w.delivered
  few : w.ledger.os_deliveries.length ≤ ABSOLUTE_OS_NOTIFICATIONS_PER_HOUR
  keys : Windows.Remembers TimedKey.key TimedKey.observed_at_millis
    (NOTIFICATION_KEY_TTL_MILLIS + 1) MAX_NOTIFICATION_KEYS w.ledger.wall_high_water_millis
    w.recorded w.ledger.keys
  apart : Windows.Apart TimedKey.key TimedKey.observed_at_millis (NOTIFICATION_KEY_TTL_MILLIS + 1)
    MAX_NOTIFICATION_KEYS w.recorded
  bounded : w.ledger.keys.length ≤ MAX_NOTIFICATION_KEYS
  recent : w.ledger.records.length ≤ MAX_NOTIFICATION_RECORDS
  valid : ∀ record ∈ w.ledger.records, record.validate = .ok ()

theorem kept_empty : Kept World.empty where
  deliveries := Windows.Holds.empty _ _
  spaced := Windows.spaced_nil
  few := Nat.zero_le _
  keys := Windows.Remembers.empty _ _ _ _ _
  apart := Windows.apart_nil
  bounded := Nat.zero_le _
  recent := Nat.zero_le _
  valid record hrecord := by cases hrecord

theorem Kept.validates {w : World} (h : Kept w) : w.ledger.validate = .ok () := by
  unfold NotificationLedger.validate
  simp only [bind_ok_iff, refuseIf_ok_iff, forM_ok_iff]
  refine ⟨(), ?_, h.valid⟩
  rintro (hrecords | hkeys | hdeliveries)
  · exact absurd h.recent (not_le.mpr hrecords)
  · exact absurd h.bounded (not_le.mpr hkeys)
  · exact absurd h.few (not_le.mpr hdeliveries)

section
variable {w : World} {call : NotificationCall}

theorem high_water_le : w.ledger.wall_high_water_millis ≤ call.now w.ledger :=
  le_max_right _ _

theorem Kept.pruned (h : Kept w) : Kept { w with ledger := call.pruned w.ledger } where
  deliveries := (h.deliveries.later high_water_le).prune
  spaced := h.spaced
  few := (List.dropWhile_sublist _).length_le.trans h.few
  keys := (h.keys.later high_water_le).prune
  apart := h.apart
  bounded := (List.dropWhile_sublist _).length_le.trans h.bounded
  recent := h.recent
  valid := h.valid

theorem Kept.window (h : Kept w) : (call.pruned w.ledger).os_deliveries =
    Windows.recent OsDeliveryEvidence.delivered_at_millis NOTIFICATION_RATE_WINDOW_MILLIS
      (call.now w.ledger) w.delivered :=
  (h.deliveries.later high_water_le).pruned

theorem trim_trim (value : List Char) : trim (trim value) = trim value := by
  let front := value.dropWhile is_whitespace
  have htrim : ∀ l, trim l = (l.dropWhile is_whitespace).rdropWhile is_whitespace := fun _ => rfl
  have hfront : (front.rdropWhile is_whitespace).dropWhile is_whitespace =
      front.rdropWhile is_whitespace := by
    rw [List.dropWhile_eq_self_iff]
    intro hpos
    have hstart := List.rdropWhile_prefix is_whitespace front
    rw [hstart.getElem hpos]
    exact List.dropWhile_eq_self_iff.mp (List.dropWhile_idempotent is_whitespace value)
      (hpos.trans_le hstart.length_le)
  rw [htrim value, htrim, hfront, List.rdropWhile_idempotent]

theorem normalize_title_again {value title : List Char} (h : normalize_title value = .ok title) :
    normalize_title title = .ok title := by
  unfold normalize_title at h ⊢
  dsimp only at h ⊢
  split at h
  · cases h
  · rename_i hvalid
    cases h
    rw [trim_trim, if_neg hvalid]

theorem key_ok {event : NotificationEvent} {key : NotificationKey} (h : event.key = .ok key) :
    key.generation ≠ 0 ∧ key.activity_sequence ≠ 0 := by
  unfold NotificationEvent.key at h
  simp only [bind_ok_iff, refuseIf_ok_iff, pure_ok_iff, not_or] at h
  obtain ⟨-, hvalid, activity, -, rfl⟩ := h
  exact hvalid

theorem Kept.taken (h : Kept { w with ledger := call.pruned w.ledger }) {key : NotificationKey}
    (hkey : call.event.key = .ok key) {title : List Char}
    (htitle : normalize_title call.title = .ok title)
    (hnew : key ∉ (call.pruned w.ledger).keys.map TimedKey.key) :
    Kept { w with
      ledger := record (call.pruned w.ledger) key title call.deep_link (call.now w.ledger)
      recorded := w.recorded ++ [⟨key, call.now w.ledger⟩] } where
  deliveries := h.deliveries
  spaced := h.spaced
  few := h.few
  keys := by
    have hpush := h.keys.push (a := ⟨key, call.now w.ledger⟩) rfl hnew
    have hcap := hpush.cap
    unfold record
    dsimp only at hcap ⊢
    exact hcap
  apart := h.apart.push h.keys rfl hnew
  bounded := by
    unfold record
    dsimp only
    exact Windows.length_cap_le MAX_NOTIFICATION_KEYS _
  recent := List.length_take_le _ _
  valid := by
    intro record hrecord
    rcases List.mem_cons.mp (List.mem_of_mem_take hrecord) with rfl | hrecord
    · obtain ⟨hgeneration, hsequence⟩ := key_ok hkey
      unfold NotificationRecord.validate
      simp only [bind_ok_iff, refuseIf_ok_iff, not_or]
      exact ⟨title, normalize_title_again htitle, hgeneration, hsequence⟩
    · exact h.valid record hrecord

theorem Kept.sent (h : Kept w) (activity : NotificationActivity)
    (hroom : w.ledger.os_deliveries.length < ABSOLUTE_OS_NOTIFICATIONS_PER_HOUR)
    (hpruned : w.ledger.os_deliveries =
      Windows.recent OsDeliveryEvidence.delivered_at_millis NOTIFICATION_RATE_WINDOW_MILLIS
        w.ledger.wall_high_water_millis w.delivered) : Kept { w with
      ledger := { w.ledger with
        os_deliveries := w.ledger.os_deliveries ++ [⟨activity, w.ledger.wall_high_water_millis⟩] }
      delivered := w.delivered ++ [⟨activity, w.ledger.wall_high_water_millis⟩] } where
  deliveries := h.deliveries.push rfl
  spaced := by
    apply h.spaced.push
    rw [← hpruned]
    exact hroom
  few := by
    rw [List.length_append, List.length_singleton]
    exact hroom
  keys := h.keys
  apart := h.apart
  bounded := h.bounded
  recent := h.recent
  valid := h.valid

theorem Kept.exec (h : Kept w) : Kept (w.exec call) := by
  have hcases := run_cases call w.ledger
  unfold World.exec
  generalize hrun : call.run w.ledger = result at hcases
  cases hcases with
  | failed error => exact h
  | suppressed reason early =>
    cases hkey : call.event.key with
    | error error => exact h
    | ok key => exact h
  | duplicate =>
    cases hkey : call.event.key with
    | error error => exact h.pruned
    | ok key => exact h.pruned
  | recorded key event title normal new decision ledger' delivers =>
    have hrecord := h.pruned.taken event normal new
    rw [event]
    cases delivers with
    | kept reason late => exact hrecord
    | delivered platform absolute limited =>
      exact hrecord.sent key.activity absolute h.window

theorem run_kept (h : Kept w) (calls : List NotificationCall) : Kept (w.run calls) := by
  induction calls generalizing w with
  | nil => exact h
  | cons call calls ih => exact ih h.exec

end

/-! ## What the ledger promises -/

theorem eligible_activity {event : NotificationEvent} {key : NotificationKey}
    (h : event.key = .ok key) (hactivity : event.activity ≠ .NeedsInput) :
    key.activity ≠ .NeedsInput := by
  unfold NotificationEvent.key at h
  simp only [bind_ok_iff, refuseIf_ok_iff, pure_ok_iff] at h
  obtain ⟨-, -, activity, hkey, rfl⟩ := h
  rintro rfl
  apply hactivity
  cases hstate : event.activity <;> rw [hstate] at hkey <;> cases hkey

/-- By the clock of the ledger, which no clock of the machine sets back, no hour has
too many notifications of the system, none but those that need input go over the
limit of the policy, and no key comes back early. -/
theorem notifications_are_limited (calls : List NotificationCall) :
    let w := World.empty.run calls
    (∀ start, (w.delivered.filter fun d => start ≤ d.delivered_at_millis ∧
        d.delivered_at_millis < start + NOTIFICATION_RATE_WINDOW_MILLIS).length ≤
      ABSOLUTE_OS_NOTIFICATIONS_PER_HOUR) ∧
    (∀ call decision ledger, NotificationCall.run call w.ledger = (.ok decision, ledger) →
      decision.platform.isSome = true →
      call.event.activity = .Done ∨ call.event.activity = .Failed →
      (Windows.recent OsDeliveryEvidence.delivered_at_millis NOTIFICATION_RATE_WINDOW_MILLIS
        ledger.wall_high_water_millis w.delivered).length < call.policy.configured_limit) ∧
    (∀ before a mid b after, w.recorded = before ++ a :: (mid ++ b :: after) → a.key = b.key →
      NOTIFICATION_KEY_TTL_MILLIS < b.observed_at_millis - a.observed_at_millis ∨
        MAX_NOTIFICATION_KEYS ≤ Windows.others TimedKey.key a mid) ∧
    w.ledger.validate = .ok () ∧
    ∀ call answer ledger, NotificationCall.run call w.ledger = (answer, ledger) →
      ((∃ error, answer = .error error) ∨ ∃ decision reason, answer = .ok decision ∧
        decision.suppression = some reason ∧ reason.early = true) → ledger = w.ledger := by
  intro w
  have hkept : Kept w := run_kept kept_empty calls
  refine ⟨hkept.spaced.count_le hkept.deliveries.sorted, ?_, ?_, hkept.validates, ?_⟩
  · intro call decision ledger hrun hplatform hactivity
    have hcases := run_cases call w.ledger
    rw [hrun] at hcases
    cases hcases with
    | suppressed reason early => cases hplatform
    | duplicate => cases hplatform
    | recorded key event title normal new decision ledger delivers =>
      have hneeds : call.event.activity ≠ .NeedsInput := by
        rcases hactivity with h | h <;> rw [h] <;> decide
      cases delivers with
      | kept reason late => cases hplatform
      | delivered platform absolute limited =>
        have hlimited := limited (eligible_activity event hneeds)
        change (call.pruned w.ledger).os_deliveries.length < _ at hlimited
        rw [hkept.window] at hlimited
        exact hlimited
  · exact hkept.apart
  · intro call answer ledger hrun hearly
    have hcases := run_cases call w.ledger
    rw [hrun] at hcases
    cases hcases with
    | failed error => rfl
    | suppressed reason early => rfl
    | duplicate =>
      rcases hearly with ⟨error, h⟩ | ⟨decision, reason, h, hreason, hearly⟩
      · cases h
      · cases h
        cases hreason
        cases hearly
    | recorded key event title normal new decision ledger delivers =>
      rcases hearly with ⟨error, h⟩ | ⟨decision', reason, h, hreason, hearly⟩
      · cases h
      · cases h
        cases delivers with
        | kept reason' late =>
          cases hreason
          rw [hearly] at late
          cases late
        | delivered platform absolute limited => cases hreason

/-- A session that is done, at a time that the wall clock gives. -/
def doneCall (sequence wall_millis : Nat) : NotificationCall where
  policy := ⟨.Os, .Granted, 1⟩
  event := ⟨7, 1, .Done, sequence⟩
  title := "build".toList
  deep_link := sequence
  context := ⟨1, true, false⟩
  clock := ⟨wall_millis, 0, 0⟩

/-- The wall clock is set back, and an hour passes. -/
theorem done_is_delivered_after_an_hour :
    (Windows.recent OsDeliveryEvidence.delivered_at_millis NOTIFICATION_RATE_WINDOW_MILLIS
      9000000 (World.empty.run [doneCall 1 5000000, doneCall 2 100]).delivered).length < 1 :=
  (notifications_are_limited [doneCall 1 5000000, doneCall 2 100]).2.1 (doneCall 3 9000000)
    ⟨true, some .Individual, none⟩
    ((doneCall 3 9000000).run (World.empty.run [doneCall 1 5000000, doneCall 2 100]).ledger).2
    (by decide +kernel) rfl (Or.inl rfl)

end multiplex_domain.notification
