-- How many bytes the bucket of a route lets through. Each call puts back what
-- the clock has moved since the reading before it, so a clock that steps back
-- and comes forward again is paid for twice.
import Multiplex.Lib.Runs
import Multiplex.Relay.Core

namespace multiplex_relay_server

/-! ## Charges one after the other -/

/-- One message: its encoded bytes and the reading of the wall clock it comes with. -/
structure Charge where
  bytes : Nat
  now_millis : Nat

structure Metered where
  bucket : TokenBucket
  accepted : Nat

def Metered.new (rate_per_second burst now_millis : Nat) : Metered :=
  ⟨.new rate_per_second burst now_millis, 0⟩

def Metered.charge (m : Metered) (c : Charge) : Metered :=
  let (bucket, charged) := m.bucket.charge c.bytes c.now_millis
  ⟨bucket, m.accepted + if charged then c.bytes else 0⟩

def accepted (m : Metered) (charges : List Charge) : Nat := (Runs.run Metered.charge m charges).accepted

/-- What the bucket puts back for the time from one reading to the next, before it is capped. -/
def refill (rate_per_second last_millis now_millis : Nat) : Nat :=
  min ((now_millis - last_millis) * rate_per_second) U64_MAX / 1000

/-- What the bucket holds when a message is weighed against it. -/
def TokenBucket.filled (t : TokenBucket) (now_millis : Nat) : Nat :=
  min (min (t.tokens + refill t.rate_per_second t.last_millis now_millis) U64_MAX) t.burst

variable (rate_per_second : Nat) (m : Metered) (burst last_millis created_millis : Nat)
  (charges : List Charge) (now_millis : Nat) (readings : List Nat)

theorem charge_spends (c : Charge) :
    (m.charge c).bucket.rate_per_second = m.bucket.rate_per_second ∧
    (m.charge c).bucket.burst = m.bucket.burst ∧ (m.charge c).bucket.last_millis = c.now_millis ∧
    (m.charge c).accepted + (m.charge c).bucket.tokens =
      m.accepted + m.bucket.filled c.now_millis := by
  simp only [Metered.charge, TokenBucket.charge, TokenBucket.filled, refill]
  split
  · simp
  · simp
    omega

/-! ## The most that a list of readings lets through -/

/-- The highest of the readings and of the one before them. -/
def highest (first : Nat) (readings : List Nat) : Nat := readings.foldl max first

/-- What the readings put back one after the other, at most a whole burst each. -/
def refills (rate_per_second burst : Nat) : Nat → List Nat → Nat
  | _, [] => 0
  | last_millis, now_millis :: readings =>
    min burst (refill rate_per_second last_millis now_millis) +
      refills rate_per_second burst now_millis readings

/-- What the readings put back into a bucket that was new. The first of them finds it full. -/
def refills_after_first (rate_per_second burst : Nat) : List Nat → Nat
  | [] => 0
  | first :: readings => refills rate_per_second burst first readings

theorem accepted_le : accepted m charges ≤ m.accepted + m.bucket.tokens +
      refills m.bucket.rate_per_second m.bucket.burst m.bucket.last_millis
        (charges.map Charge.now_millis) := by
  induction charges generalizing m with
  | nil => simp [accepted, refills]
  | cons c charges ih =>
    obtain ⟨hrate, hburst, hlast, hspent⟩ := charge_spends m c
    have hrest := ih (m.charge c)
    rw [hrate, hburst, hlast] at hrest
    have hfilled : m.bucket.filled c.now_millis ≤ m.bucket.tokens +
        min m.bucket.burst (refill m.bucket.rate_per_second m.bucket.last_millis c.now_millis) := by
      unfold TokenBucket.filled
      omega
    simp [accepted, refills] at hrest ⊢
    omega

theorem accepted_new_le : accepted (.new rate_per_second burst created_millis) charges ≤
      burst + refills_after_first rate_per_second burst (charges.map Charge.now_millis) := by
  cases charges with
  | nil => simp [accepted, Metered.new]
  | cons c charges =>
    obtain ⟨hrate, hburst, hlast, hspent⟩ := charge_spends (.new rate_per_second burst created_millis) c
    have hrest := accepted_le ((Metered.new rate_per_second burst created_millis).charge c) charges
    rw [hrate, hburst, hlast] at hrest
    simp only [Metered.new, TokenBucket.new] at hspent hrest
    have hfilled : (TokenBucket.mk burst rate_per_second burst created_millis).filled c.now_millis
        ≤ burst := by
      simp [TokenBucket.filled]
    simp [accepted, Metered.new, TokenBucket.new, refills_after_first] at hrest ⊢
    omega

/-! ## Messages that take all there is -/

/-- At each reading a message as long as what the bucket then holds. -/
def drain (m : Metered) : List Nat → List Charge
  | [] => []
  | now_millis :: readings =>
    let c : Charge := ⟨m.bucket.filled now_millis, now_millis⟩
    c :: drain (m.charge c) readings

@[simp] theorem drain_readings : (drain m readings).map Charge.now_millis = readings := by
  induction readings generalizing m with
  | nil => simp [drain]
  | cons now readings ih => simp [drain, ih]

theorem charge_filled : m.charge ⟨m.bucket.filled now_millis, now_millis⟩ =
      ⟨⟨0, m.bucket.rate_per_second, m.bucket.burst, now_millis⟩,
        m.accepted + m.bucket.filled now_millis⟩ := by
  simp [Metered.charge, TokenBucket.charge, TokenBucket.filled, refill]

theorem accepted_drain_cons : accepted m (drain m (now_millis :: readings)) =
      let m' : Metered := ⟨⟨0, m.bucket.rate_per_second, m.bucket.burst, now_millis⟩,
        m.accepted + m.bucket.filled now_millis⟩
      accepted m' (drain m' readings) := by
  simp [drain, accepted, charge_filled]

theorem filled_empty : (TokenBucket.mk 0 rate_per_second burst last_millis).filled now_millis =
      min burst (refill rate_per_second last_millis now_millis) := by
  unfold TokenBucket.filled refill
  simp only
  omega

theorem accepted_drain (before : Nat) (readings : List Nat) :
    accepted ⟨⟨0, rate_per_second, burst, last_millis⟩, before⟩
        (drain ⟨⟨0, rate_per_second, burst, last_millis⟩, before⟩ readings) =
      before + refills rate_per_second burst last_millis readings := by
  induction readings generalizing last_millis before with
  | nil => simp [drain, accepted, refills]
  | cons now readings ih =>
    rw [accepted_drain_cons]
    simp only [ih, filled_empty, refills, Nat.add_assoc]

theorem accepted_drain_new {rate_per_second burst created_millis : Nat} (hburst : burst ≤ U64_MAX)
    (first : Nat) (readings : List Nat) : accepted (.new rate_per_second burst created_millis)
        (drain (.new rate_per_second burst created_millis) (first :: readings)) =
      burst + refills_after_first rate_per_second burst (first :: readings) := by
  have hfilled : (Metered.new rate_per_second burst created_millis).bucket.filled first = burst := by
    simp only [Metered.new, TokenBucket.new, TokenBucket.filled]
    omega
  rw [accepted_drain_cons]
  simp only [hfilled, accepted_drain, refills_after_first]
  simp [Metered.new, TokenBucket.new]

/-! ## Clocks that pay once -/

/-- No reading is ahead of the one before it while that one is below the highest: a clock that has
stepped back does not come forward again before a reading has caught up with it. -/
def paysOnce : Nat → Nat → List Nat → Bool
  | _, _, [] => true
  | high, last_millis, now_millis :: readings =>
    (now_millis ≤ last_millis || high == last_millis) &&
      paysOnce (max high now_millis) now_millis readings

theorem le_highest (first : Nat) (readings : List Nat) : first ≤ highest first readings := by
  induction readings generalizing first with
  | nil => simp [highest]
  | cons now readings ih => exact (Nat.le_max_left first now).trans (ih (max first now))

theorem refill_le : refill rate_per_second last_millis now_millis * 1000 ≤
      rate_per_second * (now_millis - last_millis) := by
  unfold refill
  rw [Nat.mul_comm rate_per_second]
  omega

theorem refills_le (rate_per_second burst high last_millis : Nat) (readings : List Nat)
    (hhigh : last_millis ≤ high) (honce : paysOnce high last_millis readings = true) :
    refills rate_per_second burst last_millis readings * 1000 ≤
      rate_per_second * (highest high readings - high) := by
  induction readings generalizing high last_millis with
  | nil => simp [refills]
  | cons now readings ih =>
    simp [paysOnce] at honce
    have hrest := ih (max high now) now (Nat.le_max_right high now) honce.2
    have hfirst := refill_le rate_per_second last_millis now
    have hmin := Nat.mul_le_mul_right 1000
      (Nat.min_le_right burst (refill rate_per_second last_millis now))
    simp only [refills, Nat.add_mul]
    rcases honce.1 with hback | hcaught
    · -- a step back puts nothing back, and leaves the highest reading where it is
      have hmax : max high now = high := by omega
      have hzero : now - last_millis = 0 := by omega
      rw [hzero, Nat.mul_zero] at hfirst
      rw [hmax] at hrest
      have hcons : highest high (now :: readings) = highest high readings := by
        simp [highest, hmax]
      rw [hcons]
      simpa using Nat.add_le_add (hmin.trans hfirst) hrest
    · -- a step forward from the highest reading is paid for the first time
      subst hcaught
      have hle := le_highest (max high now) readings
      have hsplit : rate_per_second * (highest (max high now) readings - high) =
          rate_per_second * (highest (max high now) readings - max high now) +
            rate_per_second * (now - high) := by
        rw [← Nat.mul_add]
        congr 1
        omega
      have hcons : highest high (now :: readings) = highest (max high now) readings := by
        simp [highest]
      rw [hcons, hsplit, Nat.add_comm (rate_per_second * _)]
      apply Nat.add_le_add (hmin.trans hfirst) hrest

theorem refills_after_first_le (honce : paysOnce created_millis created_millis readings = true) :
    refills_after_first rate_per_second burst readings ≤
      rate_per_second * (highest created_millis readings - created_millis) / 1000 := by
  rw [Nat.le_div_iff_mul_le (by simp)]
  cases readings with
  | nil => simp [refills_after_first]
  | cons first readings =>
    simp only [paysOnce, Bool.and_eq_true] at honce
    have hrest := refills_le rate_per_second burst _ first readings
      (Nat.le_max_right created_millis first) honce.2
    have hmono : rate_per_second * (highest (max created_millis first) readings -
        max created_millis first) ≤ rate_per_second *
          (highest created_millis (first :: readings) - created_millis) := by
      apply Nat.mul_le_mul_left
      simp [highest]
      omega
    exact hrest.trans hmono

/-! ## The bound -/

/-- What was let through is at most the burst and the rate for the time that passed. -/
def WithinRate (rate_per_second burst created_millis : Nat) (charges : List Charge) : Prop :=
  accepted (.new rate_per_second burst created_millis) charges ≤ burst + rate_per_second *
    (highest created_millis (charges.map Charge.now_millis) - created_millis) / 1000

instance (rate_per_second burst created_millis : Nat) (charges : List Charge) :
    Decidable (WithinRate rate_per_second burst created_millis charges) := by
  unfold WithinRate
  infer_instance

/-- A clock keeps every stream of messages within the rate exactly when what its readings put back
after the first is within the rate. A clock that pays once does. -/
theorem clock_keeps_rate (rate_per_second burst created_millis : Nat) (readings : List Nat)
    (hburst : burst ≤ U64_MAX) :
    ((∀ charges : List Charge, charges.map Charge.now_millis = readings →
        WithinRate rate_per_second burst created_millis charges) ↔
      refills_after_first rate_per_second burst readings ≤
        rate_per_second * (highest created_millis readings - created_millis) / 1000) ∧
    (paysOnce created_millis created_millis readings = true →
      ∀ charges : List Charge, charges.map Charge.now_millis = readings →
        WithinRate rate_per_second burst created_millis charges) := by
  have henough : refills_after_first rate_per_second burst readings ≤
      rate_per_second * (highest created_millis readings - created_millis) / 1000 →
      ∀ charges : List Charge, charges.map Charge.now_millis = readings →
        WithinRate rate_per_second burst created_millis charges := by
    rintro hle charges rfl
    have hmost := accepted_new_le rate_per_second burst created_millis charges
    unfold WithinRate
    omega
  refine ⟨⟨fun hall => ?_, henough⟩, fun honce =>
    henough (refills_after_first_le rate_per_second burst created_millis readings honce)⟩
  cases readings with
  | nil => simp [refills_after_first]
  | cons first readings =>
    have hdrained := hall (drain (.new rate_per_second burst created_millis) (first :: readings))
      (drain_readings _ _)
    unfold WithinRate at hdrained
    rw [accepted_drain_new hburst, drain_readings] at hdrained
    omega

/-- A clock that steps back by a second and stays there. -/
theorem a_clock_set_back_keeps_the_rate :
    WithinRate 1000 1000 5000 [⟨1000, 6000⟩, ⟨1000, 5000⟩, ⟨500, 5000⟩] :=
  (clock_keeps_rate 1000 1000 5000 [6000, 5000, 5000] (by simp [U64_MAX])).2 (by simp [paysOnce]) _
    (by simp)

/-- A clock that steps back by a second and comes forward again lets 3000 bytes through in one
second, where the burst and the rate allow 2000. -/
theorem a_second_is_paid_for_twice :
    ¬ WithinRate 1000 1000 5000 [⟨1000, 5000⟩, ⟨1000, 6000⟩, ⟨0, 5000⟩, ⟨1000, 6000⟩] := by
  decide

end multiplex_relay_server
