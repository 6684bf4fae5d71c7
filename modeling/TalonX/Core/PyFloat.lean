import Mathlib.Algebra.Order.Ring.Rat
import Mathlib.Data.Rat.Defs

/-!
# Python floats

`PyFloat` has the special values of a `float` and its partial operations; finite values are exact, rounding is left out.

- `sub`, `abs`, `scale`, `div?`: arithmetic, where a division by zero raises;
- `lt`, `le`: comparisons, which are false on `nan`;
- `dump`, `load`: a number in JSON, where `nan` and the infinities become `null`.
-/

set_option autoImplicit false

namespace TalonX.Core

inductive PyFloat
  | nan
  | inf (negative : Bool)
  | fin (q : ℚ)
  deriving DecidableEq, Repr

namespace PyFloat

instance : OfNat PyFloat 0 := ⟨fin 0⟩

def neg : PyFloat → PyFloat
  | nan => nan
  | inf s => inf !s
  | fin q => fin (-q)

def abs : PyFloat → PyFloat
  | nan => nan
  | inf _ => inf false
  | fin q => fin |q|

def sub : PyFloat → PyFloat → PyFloat
  | fin a, fin b => fin (a - b)
  | fin _, inf s => inf !s
  | inf s, fin _ => inf s
  | inf s, inf t => if s = t then nan else inf s
  | _, _ => nan

/-- A finite factor times a float. -/
def scale (c : ℚ) : PyFloat → PyFloat
  | nan => nan
  | fin q => fin (c * q)
  | inf s => if c = 0 then nan else inf (s != decide (c < 0))

/-- `a / b`: a zero divisor raises `ZeroDivisionError`. -/
def div? : PyFloat → PyFloat → Option PyFloat
  | _, fin 0 => none
  | fin a, fin b => some (fin (a / b))
  | inf s, fin b => some (inf (s != decide (b < 0)))
  | fin _, inf _ => some (fin 0)
  | _, _ => some nan

def lt : PyFloat → PyFloat → Bool
  | fin a, fin b => a < b
  | fin _, inf s => !s
  | inf s, fin _ => s
  | inf s, inf t => s && !t
  | _, _ => false

def le : PyFloat → PyFloat → Bool
  | fin a, fin b => a ≤ b
  | fin _, inf s => !s
  | inf s, fin _ => s
  | inf s, inf t => s || !t
  | _, _ => false

def finite : PyFloat → Bool
  | fin _ => true
  | _ => false

/-- What `model_dump_json` writes; `none` is `null`. -/
def dump : PyFloat → Option ℚ
  | fin q => some q
  | _ => none

theorem div?_eq_none {a b : PyFloat} : a.div? b = none ↔ b = 0 := by
  constructor
  · intro h
    unfold div? at h
    split at h <;> first | rfl | cases h
  · rintro rfl
    cases a <;> rfl

theorem div?_fin {a b : ℚ} (h : b ≠ 0) : (fin a).div? (fin b) = some (fin (a / b)) := by
  unfold div?
  split
  · rename_i heq
    exact absurd (PyFloat.fin.inj heq) h
  · rename_i h₁ h₂
    rw [PyFloat.fin.inj h₁, PyFloat.fin.inj h₂]
  all_goals simp_all

theorem dump_eq_some {x : PyFloat} {q : ℚ} : x.dump = some q ↔ x = fin q := by
  cases x with
  | nan => exact ⟨nofun, nofun⟩
  | inf s => exact ⟨nofun, nofun⟩
  | fin p => simp [dump]

theorem exists_of_finite {x : PyFloat} (h : x.finite = true) : ∃ q, x = fin q := by
  cases x with
  | fin q => exact ⟨q, rfl⟩
  | nan => cases h
  | inf s => cases h

end PyFloat

end TalonX.Core
