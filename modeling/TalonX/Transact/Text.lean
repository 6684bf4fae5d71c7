import Mathlib

/-!
# Texts

- `toUpper_toUpper`: a second `str.upper` of an ASCII text changes nothing;
- `eq_of_numeral_append`: the number at the beginning of a text can be read back.
-/

set_option autoImplicit false

namespace Transact

/-- Upper-casing a symbol twice is upper-casing it once. -/
@[simp] theorem toUpper_toUpper (s : String) : s.toUpper.toUpper = s.toUpper := by
  simp [String.toUpper, String.map_map, Function.comp_def]

/-! ## Numerals -/

theorem digitChar_injOn {a b : ℕ} (ha : a < 10) (hb : b < 10) (h : a.digitChar = b.digitChar) : a = b := by
  have := congrArg Char.toNat h
  rw [Nat.toNat_digitChar_of_lt_ten ha, Nat.toNat_digitChar_of_lt_ten hb] at this
  omega

theorem toDigits_injective {m n : ℕ} (h : Nat.toDigits 10 m = Nat.toDigits 10 n) : m = n := by
  induction m using Nat.strong_induction_on generalizing n with
  | _ m ih =>
    -- a number with one digit against one with more
    have hlen : ∀ k : ℕ, 10 ≤ k → 2 ≤ (Nat.toDigits 10 k).length := fun k hk => by
      rw [Nat.toDigits_of_base_le (by decide) hk, List.length_append]
      exact Nat.succ_le_succ (List.length_pos_of_ne_nil Nat.toDigits_ne_nil)
    have hone : ∀ k : ℕ, k < 10 → (Nat.toDigits 10 k).length = 1 := fun k hk => by
      rw [Nat.toDigits_of_lt_base hk]
      rfl
    rcases Nat.lt_or_ge m 10 with hm | hm <;> rcases Nat.lt_or_ge n 10 with hn | hn
    · rw [Nat.toDigits_of_lt_base hm, Nat.toDigits_of_lt_base hn] at h
      exact digitChar_injOn hm hn (List.singleton_inj.1 h)
    · have := hlen n hn
      rw [← h, hone m hm] at this
      omega
    · have := hlen m hm
      rw [h, hone n hn] at this
      omega
    · rw [Nat.toDigits_of_base_le (by decide) hm, Nat.toDigits_of_base_le (by decide) hn] at h
      obtain ⟨hq, hr⟩ := List.append_inj' h rfl
      have hquot := ih (m / 10) (by omega) hq
      have hrem := digitChar_injOn (Nat.mod_lt m (by decide)) (Nat.mod_lt n (by decide)) (List.singleton_inj.1 hr)
      omega

/-- The number that a text starts with ends at the first character that is no digit. -/
theorem eq_of_numeral_append {m n : ℕ} {c : Char} (hc : c.isDigit = false) {x y : List Char}
    (h : Nat.toDigits 10 m ++ c :: x = Nat.toDigits 10 n ++ c :: y) : m = n := by
  have hread : ∀ (k : ℕ) (z : List Char), (Nat.toDigits 10 k ++ c :: z).takeWhile Char.isDigit = Nat.toDigits 10 k :=
    fun k z => by
      rw [List.takeWhile_append_of_pos fun d hd => Nat.isDigit_of_mem_toDigits (by decide) (by decide) hd,
        List.takeWhile_cons_of_neg (by simp [hc]), List.append_nil]
  apply toDigits_injective
  rw [← hread m x, h, hread]

end Transact
