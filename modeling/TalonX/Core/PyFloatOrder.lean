import TalonX.Core.PyFloat

/-!
# The order of Python floats

Comparisons without `nan`: what is comparable at all is totally ordered, and a difference has the sign of the order.
-/

set_option autoImplicit false

namespace TalonX.Core.PyFloat

variable {a b c : PyFloat}

/-! ## What is comparable -/

theorem le_self_left (h : a.le b = true) : a.le a = true := by
  cases a with
  | nan => cases h
  | inf s => cases s <;> rfl
  | fin q => simp [le]

theorem le_self_right (h : a.le b = true) : b.le b = true := by
  cases b with
  | nan => cases a <;> cases h
  | inf s => cases s <;> rfl
  | fin q => simp [le]

theorem le_chain (h : a.le b = true) (h' : b.le c = true) : a.le c = true := by
  cases b with
  | nan => cases h'
  | inf t =>
    cases t with
    | true =>
      -- below everything: `a` is as low
      cases a with
      | nan => cases h
      | fin p => cases h
      | inf s =>
        cases s with
        | false => cases h
        | true => exact h'
    | false =>
      cases c with
      | nan => cases h'
      | fin r => cases h'
      | inf u =>
        cases u with
        | true => cases h'
        | false => exact h
  | fin q =>
    cases a with
    | nan => cases h
    | inf s => cases c <;> cases s <;> simp_all [le]
    | fin p =>
      cases c with
      | nan => cases h'
      | inf t => exact h'
      | fin r =>
        simp only [le, decide_eq_true_eq] at h h' ⊢
        exact h.trans h'

theorem le_of_lt_true (h : a.lt b = true) : a.le b = true := by
  cases a with
  | nan => cases h
  | inf s => cases b <;> cases s <;> simp_all [le, lt]
  | fin p =>
    cases b with
    | nan => cases h
    | inf t => exact h
    | fin q =>
      simp only [le, lt, decide_eq_true_eq] at h ⊢
      exact h.le

/-- Of two comparable numbers one is at most the other. -/
theorem le_of_not_le (ha : a.le a = true) (hb : b.le b = true) (h : a.le b = false) : b.le a = true := by
  cases a with
  | nan => cases ha
  | inf s =>
    cases b with
    | nan => cases hb
    | inf t => cases s <;> cases t <;> simp_all [le]
    | fin q => cases s <;> simp_all [le]
  | fin p =>
    cases b with
    | nan => cases hb
    | inf t => cases t <;> simp_all [le]
    | fin q =>
      simp only [le, decide_eq_false_iff_not, decide_eq_true_eq] at h ⊢
      exact (not_le.1 h).le

theorem le_of_not_lt (ha : a.le a = true) (hb : b.le b = true) (h : a.lt b = false) : b.le a = true := by
  cases a with
  | nan => cases ha
  | inf s =>
    cases b with
    | nan => cases hb
    | inf t => cases s <;> cases t <;> simp_all [le, lt]
    | fin q => cases s <;> simp_all [le, lt]
  | fin p =>
    cases b with
    | nan => cases hb
    | inf t => cases t <;> simp_all [le, lt]
    | fin q =>
      simp only [le, lt, decide_eq_false_iff_not, decide_eq_true_eq] at h ⊢
      exact not_lt.1 h

/-! ## Differences -/

theorem lt_fin (p q : ℚ) : (fin p).lt (fin q) = decide (p < q) := rfl

/-- A difference with a number that is no smaller is not positive. -/
theorem not_zero_lt_sub (h : a.le b = true) : (0 : PyFloat).lt (a.sub b) = false := by
  show (fin 0).lt (a.sub b) = false
  cases a with
  | nan => cases h
  | inf s => cases b with
    | nan => cases s <;> rfl
    | inf t => cases s <;> cases t <;> first | rfl | cases h
    | fin q => cases s <;> first | rfl | cases h
  | fin p => cases b with
    | nan => rfl
    | inf t => cases t <;> first | rfl | cases h
    | fin q =>
      simp only [le, decide_eq_true_eq] at h
      rw [sub, lt_fin, decide_eq_false_iff_not]
      exact not_lt.2 (sub_nonpos.2 h)

theorem not_sub_lt_zero (h : b.le a = true) : (a.sub b).lt 0 = false := by
  show (a.sub b).lt (fin 0) = false
  cases a with
  | nan => cases b <;> rfl
  | inf s => cases b with
    | nan => cases s <;> rfl
    | inf t => cases s <;> cases t <;> first | rfl | cases h
    | fin q => cases s <;> first | rfl | cases h
  | fin p => cases b with
    | nan => rfl
    | inf t => cases t <;> first | rfl | cases h
    | fin q =>
      simp only [le, decide_eq_true_eq] at h
      rw [sub, lt_fin, decide_eq_false_iff_not]
      exact not_lt.2 (sub_nonneg.2 h)

end TalonX.Core.PyFloat
