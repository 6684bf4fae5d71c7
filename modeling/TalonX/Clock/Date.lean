import TalonX.Clock.IsoFormat

/-!
# Dates

A date is the number of its day. `isoformat` writes the same first ten characters as the times of that day.

- `Utc.date`, `Date.lastSecond`: the day of a time, and the last full second of a day;
- `StartsWithDate.lt`: two texts that start with the dates of different days compare as the days.
-/

set_option autoImplicit false

namespace Clock

/-- A `date`: its proleptic Gregorian ordinal. -/
structure Date where
  ordinal : ℕ
  pos : 0 < ordinal
  le_max : ordinal ≤ daysBeforeYear 10000
  deriving DecidableEq

theorem Date.ext_ordinal {d e : Date} (h : d.ordinal = e.ordinal) : d = e := by
  cases d
  cases e
  cases h
  rfl

instance : LinearOrder Date := LinearOrder.lift' Date.ordinal fun _ _ h => Date.ext_ordinal h

namespace Date

theorem lt_iff {d e : Date} : d < e ↔ d.ordinal < e.ordinal := Iff.rfl

/-- `d - timedelta(days=n)`: before the first day it is an `OverflowError`. -/
def minusDays (d : Date) (n : ℕ) : Option Date :=
  if h : n < d.ordinal then some ⟨d.ordinal - n, by omega, by have := d.le_max; omega⟩ else none

def isoformat (d : Date) : String := String.ofList (Utc.dateText d.ordinal)

/-- 23:59:59 of the day, in UTC. -/
def lastSecond (d : Date) : Utc where
  micros := (d.ordinal - 1) * 86400000000 + 86399000000
  lt_horizon := by
    have := d.pos
    have := d.le_max
    unfold horizon
    omega

end Date

/-- `t.date()` in UTC. -/
def Utc.date (t : Utc) : Date where
  ordinal := t.ordinal
  pos := Nat.succ_pos _
  le_max := by
    have := t.lt_horizon
    unfold horizon at this
    unfold Utc.ordinal
    omega

/-! ## The order of the texts -/

/-- A text that starts with the date `n`. -/
def StartsWithDate (n : ℕ) (s : String) : Prop := ∃ rest : List Char, s = String.ofList (Utc.dateText n ++ rest)

theorem Date.startsWithDate (d : Date) : StartsWithDate d.ordinal d.isoformat :=
  ⟨[], by rw [isoformat, List.append_nil]⟩

theorem Utc.startsWithDate (t : Utc) : StartsWithDate t.date.ordinal t.isoformat := ⟨_, rfl⟩

theorem StartsWithDate.lt {d e : Date} {s u : String} (hs : StartsWithDate d.ordinal s)
    (hu : StartsWithDate e.ordinal u) (h : d < e) : s < u := by
  obtain ⟨x, rfl⟩ := hs
  obtain ⟨y, rfl⟩ := hu
  rw [String.lt_iff_toList_lt, String.toList_ofList, String.toList_ofList]
  exact append_lt_of_lt (by simp [Utc.length_dateText]) (Utc.dateText_lt d.pos e.le_max h) x y

theorem Date.startsWithDate_lastSecond (d : Date) : StartsWithDate d.ordinal d.lastSecond.isoformat := by
  have hd : d.lastSecond.date = d := Date.ext_ordinal (by
    have := d.pos
    change d.lastSecond.micros / 86400000000 + 1 = d.ordinal
    change ((d.ordinal - 1) * 86400000000 + 86399000000) / 86400000000 + 1 = d.ordinal
    omega)
  have := d.lastSecond.startsWithDate
  rwa [hd] at this

end Clock
