import Mathlib.Data.List.DropRight
import Mathlib.Data.List.Pairwise

/-!
# The last elements of a history

`xs.rtakeWhile p` are the elements at the end of a history `xs` that satisfy `p`, back to the last one that does not.

- `rtakeWhile_of_imp`: a run of `p` lies within the run of anything weaker;
- `length_rtakeWhile_eq_countP`: a counter that counts every `p` counts the run at the end, exactly when nothing but `p`
  follows the first `p`.
-/

set_option autoImplicit false

namespace Transact

variable {α : Type} {p q : α → Bool}

theorem rtakeWhile_of_imp (h : ∀ x, p x = true → q x = true) (xs : List α) :
    (xs.rtakeWhile q).rtakeWhile p = xs.rtakeWhile p := by
  induction xs using List.reverseRecOn with
  | nil => rfl
  | append_singleton xs x ih =>
    by_cases hp : p x = true
    · rw [List.rtakeWhile_concat_pos _ _ x (h x hp), List.rtakeWhile_concat_pos _ _ x hp,
        List.rtakeWhile_concat_pos _ _ x hp, ih]
    · rw [List.rtakeWhile_concat_neg _ xs x hp]
      by_cases hq : q x = true
      · rw [List.rtakeWhile_concat_pos _ _ x hq, List.rtakeWhile_concat_neg _ _ x hp]
      · rw [List.rtakeWhile_concat_neg _ _ x hq, List.rtakeWhile_nil]

theorem length_rtakeWhile_le_countP (xs : List α) : (xs.rtakeWhile p).length ≤ xs.countP p := by
  induction xs using List.reverseRecOn with
  | nil => exact le_refl 0
  | append_singleton xs x ih =>
    by_cases hp : p x = true
    · rw [List.rtakeWhile_concat_pos _ _ x hp, List.length_append, List.countP_append, List.countP_singleton, if_pos hp,
        List.length_singleton]
      omega
    · rw [List.rtakeWhile_concat_neg _ _ x hp]
      exact Nat.zero_le _

/-- Nothing but `p` follows the first `p`. -/
def Settled (p : α → Bool) (xs : List α) : Prop := xs.Pairwise fun x y => p x = true → p y = true

theorem settled_concat {xs : List α} {x : α} :
    Settled p (xs ++ [x]) ↔ Settled p xs ∧ (p x = true ∨ xs.countP p = 0) := by
  rw [Settled, List.pairwise_append]
  refine and_congr_right fun _ => ?_
  simp only [List.pairwise_singleton, List.mem_singleton, forall_eq, true_and]
  by_cases hp : p x = true
  · simp [hp]
  · simp [hp, List.countP_eq_zero]

theorem length_rtakeWhile_eq_countP {xs : List α} : (xs.rtakeWhile p).length = xs.countP p ↔ Settled p xs := by
  induction xs using List.reverseRecOn with
  | nil => exact ⟨fun _ => List.Pairwise.nil, fun _ => rfl⟩
  | append_singleton xs x ih =>
    rw [settled_concat, List.countP_append, List.countP_singleton]
    by_cases hp : p x = true
    · rw [List.rtakeWhile_concat_pos _ _ x hp, if_pos hp, List.length_append, List.length_singleton]
      constructor
      · intro h
        exact ⟨ih.1 (Nat.add_right_cancel h), .inl hp⟩
      · rintro ⟨h, -⟩
        rw [ih.2 h]
    · rw [List.rtakeWhile_concat_neg _ _ x hp, if_neg hp]
      constructor
      · intro h
        have hnone : xs.countP p = 0 := by simpa using h.symm
        have hrun := length_rtakeWhile_le_countP (p := p) xs
        exact ⟨ih.1 (by omega), .inr hnone⟩
      · rintro ⟨-, h⟩
        simpa using (h.resolve_left hp).symm

end Transact
