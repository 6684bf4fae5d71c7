import Mathlib.Data.Rat.Defs
import Mathlib.Data.String.Basic

/-!
# Ticks and sessions of the quant scanner

- `MarketTickEvent`: what the market stream delivers; `Bar`: a row of a buffer;
- `getSession`: the session of a time; the time-zone database is the parameter `eastern`, which gives the New York time
  of day of an instant.

A time is a number of microseconds of UTC. Prices and volumes are exact.
-/

set_option autoImplicit false

namespace TalonX.Quant

abbrev Symbol := String

abbrev Timestamp := ℕ

inductive TickEventType
  | trade
  | quote
  | bar
  deriving DecidableEq, Repr

structure MarketTickEvent where
  eventType : TickEventType
  symbol : Symbol
  timestamp : Timestamp
  bid : Option ℚ
  ask : Option ℚ
  openPrice : Option ℚ
  high : Option ℚ
  low : Option ℚ
  close : Option ℚ
  volume : Option ℚ
  deriving DecidableEq, Repr

inductive Session
  | preMarket
  | regular
  | closed
  deriving DecidableEq, Repr

structure Bar where
  timestamp : Timestamp
  openPrice : Option ℚ
  high : Option ℚ
  low : Option ℚ
  close : ℚ
  volume : Option ℚ
  session : Session
  deriving DecidableEq, Repr

/-! ## Times -/

def second : ℕ := 1000000

def minute : ℕ := 60 * second

def hour : ℕ := 60 * minute

/-- `timestamp.replace(second=0, microsecond=0)`. -/
def floorMinute (t : Timestamp) : Timestamp := t - t % minute

/-- `timestamp.replace(minute=(timestamp.minute // interval) * interval, second=0, microsecond=0)`. -/
def bucketStart (interval : ℕ) (t : Timestamp) : Timestamp :=
  t - t % hour + t % hour / minute / interval * interval * minute

theorem minute_pos : 0 < minute := by decide

theorem floorMinute_le (t : Timestamp) : floorMinute t ≤ t := Nat.sub_le ..

theorem floorMinute_eq (t : Timestamp) : floorMinute t = minute * (t / minute) :=
  Nat.sub_eq_of_eq_add (Nat.div_add_mod t minute).symm

theorem floorMinute_mono {s t : Timestamp} (h : s ≤ t) : floorMinute s ≤ floorMinute t := by
  rw [floorMinute_eq, floorMinute_eq]
  exact Nat.mul_le_mul_left minute (Nat.div_le_div_right h)

@[simp] theorem floorMinute_floorMinute (t : Timestamp) : floorMinute (floorMinute t) = floorMinute t := by
  rw [floorMinute_eq (floorMinute t), floorMinute_eq t, Nat.mul_div_cancel_left _ minute_pos]

/-- A bucket depends on the minute only: the hours, and the intervals of the last one. -/
theorem bucketStart_eq (interval : ℕ) (t : Timestamp) :
    bucketStart interval t = hour * (t / minute / 60) + t / minute % 60 / interval * interval * minute := by
  have hhour : hour = minute * 60 := Nat.mul_comm ..
  have hrest : t % hour / minute = t / minute % 60 := by rw [hhour, Nat.mod_mul_right_div_self]
  have hsub : t - t % hour = hour * (t / minute / 60) := by
    rw [Nat.div_div_eq_div_mul, ← hhour]
    exact Nat.sub_eq_of_eq_add (Nat.div_add_mod t hour).symm
  rw [bucketStart, hrest, hsub]

theorem bucketStart_floorMinute (interval : ℕ) (t : Timestamp) :
    bucketStart interval (floorMinute t) = bucketStart interval t := by
  rw [bucketStart_eq, bucketStart_eq, floorMinute_eq, Nat.mul_div_cancel_left _ minute_pos]

/-- Buckets of later minutes are not earlier. -/
theorem bucket_mono (interval : ℕ) {j k : ℕ} (h : j ≤ k) :
    hour * (j / 60) + j % 60 / interval * interval * minute ≤ hour * (k / 60) + k % 60 / interval * interval * minute := by
  rcases Nat.lt_or_eq_of_le (Nat.div_le_div_right (c := 60) h) with hlt | heq
  · -- an earlier hour: what is left of it is less than the next one
    have hpart : j % 60 / interval * interval * minute ≤ hour := by
      refine (Nat.mul_le_mul_right minute (Nat.div_mul_le_self ..)).trans ?_
      exact Nat.mul_le_mul_right minute (Nat.mod_lt _ (by decide)).le
    calc hour * (j / 60) + j % 60 / interval * interval * minute
        ≤ hour * (j / 60) + hour := Nat.add_le_add_left hpart _
      _ = hour * (j / 60 + 1) := (Nat.mul_succ ..).symm
      _ ≤ hour * (k / 60) := Nat.mul_le_mul_left hour hlt
      _ ≤ _ := Nat.le_add_right ..
  · have hmod : j % 60 ≤ k % 60 := by omega
    rw [heq]
    refine Nat.add_le_add_left (Nat.mul_le_mul_right minute (Nat.mul_le_mul_right interval ?_)) _
    exact Nat.div_le_div_right hmod

theorem bucketStart_mono (interval : ℕ) {s t : Timestamp} (h : s ≤ t) :
    bucketStart interval s ≤ bucketStart interval t := by
  rw [bucketStart_eq, bucketStart_eq]
  exact bucket_mono interval (Nat.div_le_div_right h)

/-! ## Sessions -/

def getSession (eastern : Timestamp → ℕ) (t : Timestamp) : Session :=
  if 4 * hour ≤ eastern t ∧ eastern t < 9 * hour + 30 * minute then .preMarket
  else if 9 * hour + 30 * minute ≤ eastern t ∧ eastern t < 16 * hour then .regular
  else .closed

end TalonX.Quant
