import Mathlib.Data.List.Rotate
import Mathlib.Algebra.Order.Floor.Div

/-!
# Rotations of a list

A window of a doubled list is a piece of a rotation (`take_drop_append_self`). Windows of one length that follow each
other cover the list as soon as their lengths add up to it (`exists_turn_mem`).
-/

set_option autoImplicit false

namespace Transact

variable {α : Type*} {l : List α} {n k : ℕ}

theorem take_drop_append_self {s : ℕ} (hs : s < l.length) (hn : n ≤ l.length) :
    ((l ++ l).drop s).take n = (l.rotate s).take n := by
  rw [List.rotate_eq_drop_append_take hs.le, List.drop_append_of_le_length hs.le, List.take_append, List.take_append,
    List.take_take]
  congr 2
  rw [List.length_drop]
  omega

theorem nodup_take_rotate (hl : l.Nodup) (s n : ℕ) : ((l.rotate s).take n).Nodup :=
  (List.nodup_rotate.mpr hl).sublist (List.take_sublist _ _)

theorem rotate_congr {s t : ℕ} (h : s % l.length = t % l.length) : l.rotate s = l.rotate t := by
  rw [← List.rotate_mod l s, h, List.rotate_mod]

/-- An element is in the window that its distance from the first window falls into. -/
theorem exists_turn_mem (hk : l.length ≤ k * n) (c : ℕ) {x : α} (hx : x ∈ l) :
    ∃ j < k, x ∈ (l.rotate (c + j * n)).take n := by
  obtain ⟨d, hd, rfl⟩ := List.mem_iff_getElem.mp (List.mem_rotate (n := c).mpr hx)
  have hdl : d < l.length := by rwa [List.length_rotate] at hd
  have hdn : d < n * k := by rw [Nat.mul_comm]; omega
  have hn : 0 < n := Nat.pos_of_ne_zero fun h => by simp [h] at hdn
  refine ⟨d / n, Nat.div_lt_of_lt_mul hdn, List.mem_iff_getElem?.mpr ⟨d % n, ?_⟩⟩
  have hmod : d % n < l.length := (Nat.mod_le d n).trans_lt hdl
  rw [List.getElem?_take_of_lt (Nat.mod_lt d hn), List.getElem?_rotate hmod, ← List.getElem?_eq_getElem hd,
    List.getElem?_rotate hdl]
  congr 2
  have := Nat.div_add_mod' d n
  omega

end Transact
