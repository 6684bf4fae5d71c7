import Mathlib.Data.Nat.Find
import Mathlib.Data.String.Basic
import Mathlib.Tactic.Linarith

/-!
# UTC times as text

`datetime.isoformat()` of a UTC time, and why its texts may be compared in place of the times.

- `Utc`: a time of the years 1 to 9999, in microseconds; `Utc.date`, `Utc.isoformat`;
- `pad`: numbers of a fixed width, in the order of their numbers (`pad_append_lt`);
- `isoformat_lt_iff`, `isoformat_le_iff`: texts compare as times, also where one has a fraction and the other has none,
  since the sign of the offset comes before the point.
-/

set_option autoImplicit false

namespace Clock

/-! ## The calendar -/

def isLeap (y : ℕ) : Bool := y % 4 = 0 && (y % 100 != 0 || y % 400 = 0)

/-- The days of the years before `y`. -/
def daysBeforeYear (y : ℕ) : ℕ := (y - 1) * 365 + (y - 1) / 4 - (y - 1) / 100 + (y - 1) / 400

def daysInMonth (y : ℕ) : ℕ → ℕ
  | 0 => 0
  | 2 => if isLeap y then 29 else 28
  | 4 | 6 | 9 | 11 => 30
  | _ => 31

/-- The days of the months of `y` before a month. -/
def daysBeforeMonth (y : ℕ) : ℕ → ℕ
  | 0 => 0
  | m + 1 => daysBeforeMonth y m + daysInMonth y m

/-- The year of the `n`-th day, and the day of the year; the first day is day `1` of year `1`. -/
def yearOf (n : ℕ) : ℕ := Nat.findGreatest (fun y => daysBeforeYear y < n) (n / 365 + 1)

def dayOfYear (n : ℕ) : ℕ := n - daysBeforeYear (yearOf n)

/-- The month of the `r`-th day of `y`. -/
def monthOf (y r : ℕ) : ℕ := Nat.findGreatest (fun m => daysBeforeMonth y m < r) 12

def dayOfMonth (y r : ℕ) : ℕ := r - daysBeforeMonth y (monthOf y r)

theorem daysBeforeYear_mono {y z : ℕ} (h : y ≤ z) : daysBeforeYear y ≤ daysBeforeYear z := by
  refine monotone_nat_of_le_succ (f := daysBeforeYear) (fun n => ?_) h
  unfold daysBeforeYear
  omega

theorem daysBeforeYear_succ_le (y : ℕ) : daysBeforeYear (y + 1) ≤ daysBeforeYear y + 366 := by
  unfold daysBeforeYear
  omega

theorem daysInMonth_le (y m : ℕ) : daysInMonth y m ≤ 31 := by
  unfold daysInMonth
  split
  · omega
  · split <;> omega
  all_goals omega

theorem daysBeforeYear_yearOf {n : ℕ} (h : 0 < n) : daysBeforeYear (yearOf n) < n :=
  Nat.findGreatest_spec (P := fun y => daysBeforeYear y < n) (Nat.zero_le _) (by simpa [daysBeforeYear] using h)

theorem yearOf_mono {n k : ℕ} (h : n ≤ k) : yearOf n ≤ yearOf k :=
  Nat.findGreatest_mono (fun _ hy => lt_of_lt_of_le hy h) (by omega)

theorem monthOf_mono (y : ℕ) {r q : ℕ} (h : r ≤ q) : monthOf y r ≤ monthOf y q :=
  Nat.findGreatest_mono (fun _ hm => lt_of_lt_of_le hm h) le_rfl

theorem daysBeforeMonth_monthOf (y : ℕ) {r : ℕ} (h : 0 < r) : daysBeforeMonth y (monthOf y r) < r :=
  Nat.findGreatest_spec (P := fun m => daysBeforeMonth y m < r) (Nat.zero_le 12) h

/-- A day of the year is at most the 366th. -/
theorem dayOfYear_le (n : ℕ) : dayOfYear n ≤ 366 := by
  unfold dayOfYear
  rcases Nat.lt_or_ge (yearOf n) (n / 365 + 1) with hy | hy
  · -- the next year was tried and is too late
    have hnext : ¬ daysBeforeYear (yearOf n + 1) < n :=
      Nat.findGreatest_is_greatest (P := fun y => daysBeforeYear y < n) (Nat.lt_succ_self _) hy
    have hlen := daysBeforeYear_succ_le (yearOf n)
    omega
  · have hfirst : n / 365 * 365 ≤ daysBeforeYear (yearOf n) := by
      have := daysBeforeYear_mono hy
      unfold daysBeforeYear at this ⊢
      omega
    omega

theorem dayOfMonth_lt (y : ℕ) {r : ℕ} (h : r ≤ 366) : dayOfMonth y r < 100 := by
  unfold dayOfMonth
  rcases Nat.lt_or_ge (monthOf y r) 12 with hm | hm
  · have hnext : ¬ daysBeforeMonth y (monthOf y r + 1) < r :=
      Nat.findGreatest_is_greatest (P := fun m => daysBeforeMonth y m < r) (Nat.lt_succ_self _) hm
    have hlen := daysInMonth_le y (monthOf y r)
    simp only [daysBeforeMonth] at hnext
    omega
  · have he : monthOf y r = 12 := le_antisymm (Nat.findGreatest_le 12) hm
    rw [he]
    have hdec : 334 ≤ daysBeforeMonth y 12 := by
      simp only [daysBeforeMonth, daysInMonth]
      split <;> omega
    omega

/-! ## Numbers of a fixed width -/

/-- The last `k` digits of `n`. -/
def pad : ℕ → ℕ → List Char
  | 0, _ => []
  | k + 1, n => pad k (n / 10) ++ [Nat.digitChar (n % 10)]

theorem length_pad (k n : ℕ) : (pad k n).length = k := by
  induction k generalizing n with
  | zero => rfl
  | succ k ih => simp [pad, ih]

theorem digitChar_lt {a b : ℕ} (hb : b < 10) (h : a < b) : Nat.digitChar a < Nat.digitChar b := by
  have hall : ∀ b : Fin 10, ∀ a : Fin 10, a < b → Nat.digitChar a < Nat.digitChar b := by decide
  exact hall ⟨b, hb⟩ ⟨a, h.trans hb⟩ h

/-- Of two texts, the one whose beginning of the same length is less comes first. -/
theorem append_lt_of_lt {l l' : List Char} (hl : l.length = l'.length) (h : l < l') (x x' : List Char) :
    l ++ x < l' ++ x' := by
  induction l generalizing l' with
  | nil =>
    rw [List.eq_nil_of_length_eq_zero hl.symm] at h
    exact absurd h (lt_irrefl _)
  | cons c l ih =>
    obtain ⟨c', l', rfl⟩ := List.exists_cons_of_length_eq_add_one hl.symm
    simp only [List.cons_append, List.cons_lt_cons_iff] at h ⊢
    rcases h with h | ⟨rfl, h⟩
    · exact Or.inl h
    · exact Or.inr ⟨rfl, ih (by simpa using hl) h⟩

theorem append_lt_append {x x' : List Char} (l : List Char) (h : x < x') : l ++ x < l ++ x' := by
  induction l with
  | nil => exact h
  | cons c l ih => exact List.cons_lt_cons_iff.2 (Or.inr ⟨rfl, ih⟩)

theorem pad_lt {k a b : ℕ} (hb : b < 10 ^ k) (h : a < b) : pad k a < pad k b := by
  induction k generalizing a b with
  | zero => simp at hb; omega
  | succ k ih =>
    have hb' : b / 10 < 10 ^ k := by rw [pow_succ] at hb; omega
    rcases Nat.lt_or_ge (a / 10) (b / 10) with hd | hd
    · exact append_lt_of_lt (by simp [length_pad]) (ih hb' hd) _ _
    · have he : a / 10 = b / 10 := by omega
      simp only [pad, he]
      exact append_lt_append _ (List.cons_lt_cons_iff.2 (Or.inl (digitChar_lt (by omega) (by omega))))

/-- A number and what follows it: the less number decides, or else the rest. -/
theorem pad_append_lt {k a b : ℕ} {x y : List Char} (hb : b < 10 ^ k) (h : a < b ∨ a = b ∧ x < y) :
    pad k a ++ x < pad k b ++ y := by
  rcases h with h | ⟨rfl, h⟩
  · exact append_lt_of_lt (by simp [length_pad]) (pad_lt hb h) _ _
  · exact append_lt_append _ h

/-! ## Times -/

/-- Microseconds from the first day of year 1 to the first day of year 10000. -/
def horizon : ℕ := daysBeforeYear 10000 * 86400000000

/-- A UTC time: the microseconds since the beginning of year 1. -/
structure Utc where
  micros : ℕ
  lt_horizon : micros < horizon

namespace Utc

instance : LE Utc := ⟨fun s t => s.micros ≤ t.micros⟩

instance : LT Utc := ⟨fun s t => s.micros < t.micros⟩

instance (s t : Utc) : Decidable (s ≤ t) := inferInstanceAs (Decidable (s.micros ≤ t.micros))

instance (s t : Utc) : Decidable (s < t) := inferInstanceAs (Decidable (s.micros < t.micros))

variable (t : Utc)

/-- The number of the day, from `1`. -/
def ordinal : ℕ := t.micros / 86400000000 + 1

def secondOfDay : ℕ := t.micros / 1000000 % 86400

def microsecond : ℕ := t.micros % 1000000

/-- `t + timedelta(seconds=n)`. -/
def plusSeconds (n : ℕ) (h : t.micros + n * 1000000 < horizon) : Utc := ⟨t.micros + n * 1000000, h⟩

/-- The fraction, which a whole second does not have, and the offset. -/
def fractionText (us : ℕ) : List Char := if us = 0 then "+00:00".toList else '.' :: (pad 6 us ++ "+00:00".toList)

def timeText (sec us : ℕ) : List Char :=
  pad 2 (sec / 3600) ++ ':' :: (pad 2 (sec % 3600 / 60) ++ ':' :: (pad 2 (sec % 60) ++ fractionText us))

def dateText (n : ℕ) : List Char :=
  pad 4 (yearOf n) ++ '-' :: (pad 2 (monthOf (yearOf n) (dayOfYear n)) ++
    '-' :: pad 2 (dayOfMonth (yearOf n) (dayOfYear n)))

def isoformat : String := String.ofList (dateText t.ordinal ++ 'T' :: timeText t.secondOfDay t.microsecond)

theorem isoformat_ne_empty : t.isoformat ≠ "" := fun h => by
  have hl := congrArg String.toList h
  rw [isoformat, String.toList_ofList] at hl
  simp at hl

/-! ## The order of the texts -/

theorem cons_lt_cons_self {x y : List Char} (c : Char) (h : x < y) : c :: x < c :: y :=
  List.cons_lt_cons_iff.2 (Or.inr ⟨rfl, h⟩)

theorem fractionText_lt {a b : ℕ} (hb : b < 1000000) (h : a < b) : fractionText a < fractionText b := by
  unfold fractionText
  rw [if_neg (show ¬ b = 0 by omega)]
  by_cases ha : a = 0
  · -- the sign of the offset against the point
    rw [if_pos ha]
    exact List.cons_lt_cons_iff.2 (Or.inl (by decide))
  · rw [if_neg ha]
    exact cons_lt_cons_self _ (pad_append_lt (by simpa using hb) (Or.inl h))

theorem timeText_lt {s s' u u' : ℕ} (hs : s' < 86400) (hu : u' < 1000000) (h : s < s' ∨ s = s' ∧ u < u') :
    timeText s u < timeText s' u' := by
  unfold timeText
  refine pad_append_lt (by omega) ?_
  rcases Nat.lt_or_ge (s / 3600) (s' / 3600) with hh | hh
  · exact Or.inl hh
  refine Or.inr ⟨by omega, cons_lt_cons_self _ (pad_append_lt (by omega) ?_)⟩
  rcases Nat.lt_or_ge (s % 3600 / 60) (s' % 3600 / 60) with hm | hm
  · exact Or.inl hm
  refine Or.inr ⟨by omega, cons_lt_cons_self _ (pad_append_lt (by omega) ?_)⟩
  rcases h with h | ⟨rfl, h⟩
  · exact Or.inl (by omega)
  · exact Or.inr ⟨rfl, fractionText_lt hu h⟩

theorem length_dateText (n : ℕ) : (dateText n).length = 10 := by
  simp [dateText, length_pad]

theorem yearOf_lt {n : ℕ} (h0 : 0 < n) (h : n ≤ daysBeforeYear 10000) : yearOf n < 10000 := by
  by_contra hc
  have := daysBeforeYear_mono (not_lt.1 hc)
  have := daysBeforeYear_yearOf h0
  omega

theorem dateText_lt {n n' : ℕ} (h0 : 0 < n) (hn : n' ≤ daysBeforeYear 10000) (h : n < n') :
    dateText n < dateText n' := by
  unfold dateText
  refine pad_append_lt (yearOf_lt (by omega) hn) ?_
  rcases Nat.lt_or_eq_of_le (yearOf_mono h.le) with hy | hy
  · exact Or.inl hy
  -- in one year the later day has the later number
  have hfirst := daysBeforeYear_yearOf h0
  have hday : dayOfYear n < dayOfYear n' := by
    unfold dayOfYear
    rw [← hy]
    omega
  have hpos : 0 < dayOfYear n := by unfold dayOfYear; omega
  rw [← hy]
  refine Or.inr ⟨rfl, cons_lt_cons_self _ (pad_append_lt ?_ ?_)⟩
  · exact lt_of_le_of_lt (Nat.findGreatest_le 12) (by omega)
  rcases Nat.lt_or_eq_of_le (monthOf_mono (yearOf n) hday.le) with hm | hm
  · exact Or.inl hm
  refine Or.inr ⟨hm, cons_lt_cons_self _ (pad_lt (dayOfMonth_lt _ (dayOfYear_le n')) ?_)⟩
  have hbefore := daysBeforeMonth_monthOf (yearOf n) hpos
  unfold dayOfMonth
  rw [← hm]
  omega

variable {t} {s : Utc}

theorem isoformat_lt (h : s < t) : s.isoformat < t.isoformat := by
  have hlt : s.micros < t.micros := h
  have ht : t.micros < daysBeforeYear 10000 * 86400000000 := t.lt_horizon
  rw [isoformat, isoformat, String.lt_iff_toList_lt, String.toList_ofList, String.toList_ofList]
  rcases Nat.lt_or_ge s.ordinal t.ordinal with ho | ho
  · refine append_lt_of_lt (by simp [length_dateText]) (dateText_lt (Nat.succ_pos _) ?_ ho) _ _
    unfold ordinal
    omega
  · have he : s.ordinal = t.ordinal := by unfold ordinal at ho ⊢; omega
    rw [he]
    refine append_lt_append _ (cons_lt_cons_self _ (timeText_lt ?_ ?_ ?_))
    · exact Nat.mod_lt _ (by omega)
    · exact Nat.mod_lt _ (by omega)
    · unfold secondOfDay microsecond
      unfold ordinal at he
      omega

theorem isoformat_lt_iff : s.isoformat < t.isoformat ↔ s < t := by
  refine ⟨fun h => ?_, isoformat_lt⟩
  by_contra hc
  rcases Nat.lt_or_eq_of_le (not_lt.1 (show ¬ s.micros < t.micros from hc)) with hlt | heq
  · exact lt_asymm h (isoformat_lt hlt)
  · obtain ⟨a, ha⟩ := s
    obtain ⟨b, hb⟩ := t
    obtain rfl : b = a := heq
    exact lt_irrefl _ h

theorem isoformat_le_iff : s.isoformat ≤ t.isoformat ↔ s ≤ t := by
  rw [← not_lt, isoformat_lt_iff]
  exact not_lt (α := ℕ)

example : (Utc.mk 63920842200000000 (by decide)).isoformat < "2026-07-28T13:30:00.000250+00:00" := by decide +kernel

end Utc

end Clock
