import Mathlib.Order.Bounds.Basic
import TalonX.V2.Sizing

/-!
# The largest quantity

The search goes down from `⌊allocation / price⌋`, and a fee may have any shape. A fee is never negative, so nothing above
that start fits, and the first quantity that fits is the largest (`sizing_maximal`). A result that is refused for cash
still tells the total that was refused (`refused_total_above_cash`).
-/

set_option autoImplicit false

namespace TalonX.V2

variable {price alloc avail : ℚ} {feeFn : FeeFn}

/-- The fee-inclusive cost of a quantity. -/
def totalCost (price : ℚ) (feeFn : FeeFn) (q : ℕ) : ℚ := price * q + feeFn.fee q price

/-- What the search returns at the first quantity that fits the allocation. -/
def sizeAt (price avail : ℚ) (feeFn : FeeFn) (q : ℕ) : SizingResult :=
  if avail < totalCost price feeFn q then
    ⟨0, price * q, feeFn.fee q price, totalCost price feeFn q, false, .insufficientAvailableCash⟩
  else ⟨q, price * q, feeFn.fee q price, totalCost price feeFn q, true, .ok⟩

/-- The quantities that fit the allocation. -/
def Affordable (price alloc : ℚ) (feeFn : FeeFn) : Set ℕ := {q | totalCost price feeFn q ≤ alloc}

/-- Below `n`, the search stops at the largest quantity that fits, or nothing fits. -/
theorem sizeSearch_spec (n : ℕ) :
    (∃ q, 1 ≤ q ∧ q ≤ n ∧ q ∈ Affordable price alloc feeFn ∧ (∀ m ∈ Affordable price alloc feeFn, m ≤ n → m ≤ q) ∧
      sizeSearch price alloc avail feeFn n = sizeAt price avail feeFn q) ∨
    (∀ m ∈ Affordable price alloc feeFn, m ≤ n → m = 0) ∧
      sizeSearch price alloc avail feeFn n = .refused .oneSharePlusFeeExceedsAllocation := by
  induction n with
  | zero => exact .inr ⟨fun m _ hm => Nat.le_zero.1 hm, rfl⟩
  | succ n ih =>
    by_cases hfit : n + 1 ∈ Affordable price alloc feeFn
    · refine .inl ⟨n + 1, by omega, le_rfl, hfit, fun m _ hm => hm, ?_⟩
      have hfit' : price * (n + 1 : ℕ) + feeFn.fee (n + 1 : ℕ) price ≤ alloc := hfit
      simp only [sizeSearch, if_pos hfit']
      rfl
    · have hfit' : ¬ price * (n + 1 : ℕ) + feeFn.fee (n + 1 : ℕ) price ≤ alloc := hfit
      have hbelow : ∀ m ∈ Affordable price alloc feeFn, m ≤ n + 1 → m ≤ n := by
        intro m hm hle
        have hne : m ≠ n + 1 := by
          rintro rfl
          exact hfit hm
        omega
      have hstep : sizeSearch price alloc avail feeFn (n + 1) = sizeSearch price alloc avail feeFn n := by
        simp only [sizeSearch, if_neg hfit']
      rw [hstep]
      rcases ih with ⟨q, h1, hq, hmem, hmax, hrun⟩ | ⟨hnone, hrun⟩
      · exact .inl ⟨q, h1, by omega, hmem, fun m hm hle => hmax m hm (hbelow m hm hle), hrun⟩
      · exact .inr ⟨fun m hm hle => hnone m hm (hbelow m hm hle), hrun⟩

/-- No fee is negative, so what fits is not above the quotient. -/
theorem le_of_affordable (hp : 0 < price) {q : ℕ} (h : q ∈ Affordable price alloc feeFn) :
    q ≤ ⌊alloc / price⌋.toNat := by
  have hfee := feeFn.fee_nonneg q price
  have hcost : price * q + feeFn.fee q price ≤ alloc := h
  have hq : (q : ℚ) ≤ alloc / price := by
    rw [le_div_iff₀ hp]
    linarith
  have hfloor : (q : ℤ) ≤ ⌊alloc / price⌋ := Int.le_floor.2 (by exact_mod_cast hq)
  omega

/-- The largest quantity that fits is settled against the cash, or not even one share fits. -/
theorem sizeWholeShares_spec (hp : 0 < price) (ha : 0 < alloc) :
    (∃ q, 1 ≤ q ∧ IsGreatest (Affordable price alloc feeFn) q ∧
      sizeWholeSharesFeeInclusive price alloc avail feeFn = sizeAt price avail feeFn q) ∨
    (∀ m ∈ Affordable price alloc feeFn, m = 0) ∧ ∃ reason,
      sizeWholeSharesFeeInclusive price alloc avail feeFn = .refused reason := by
  unfold sizeWholeSharesFeeInclusive
  rw [if_neg (not_le.2 hp), if_neg (not_le.2 ha)]
  dsimp only
  split
  · rename_i hone
    refine .inr ⟨fun m hm => ?_, _, rfl⟩
    have hle := le_of_affordable hp hm
    omega
  · rcases @sizeSearch_spec price alloc avail feeFn ⌊alloc / price⌋.toNat with
      ⟨q, h1, -, hmem, hmax, hrun⟩ | ⟨hnone, hrun⟩
    · exact .inl ⟨q, h1, ⟨hmem, fun m hm => hmax m hm (le_of_affordable hp hm)⟩, hrun⟩
    · exact .inr ⟨fun m hm => hnone m hm (le_of_affordable hp hm), _, hrun⟩

/-- **Sizing.** The quantity is the largest one whose total fits the allocation, if that total fits the cash; otherwise no
share is bought. An accepted total is above neither cap. -/
theorem sizing_maximal (hp : 0 < price) (ha : 0 < alloc) :
    (∀ q : ℕ, (sizeWholeSharesFeeInclusive price alloc avail feeFn).ok = true ∧
        (sizeWholeSharesFeeInclusive price alloc avail feeFn).shares = q ↔
      1 ≤ q ∧ IsGreatest (Affordable price alloc feeFn) q ∧ totalCost price feeFn q ≤ avail) ∧
    (∀ q : ℕ, 1 ≤ q → IsGreatest (Affordable price alloc feeFn) q → avail < totalCost price feeFn q →
      (sizeWholeSharesFeeInclusive price alloc avail feeFn).ok = false ∧
        (sizeWholeSharesFeeInclusive price alloc avail feeFn).shares = 0 ∧
        (sizeWholeSharesFeeInclusive price alloc avail feeFn).reason = .insufficientAvailableCash) ∧
    ((sizeWholeSharesFeeInclusive price alloc avail feeFn).ok = true →
      (sizeWholeSharesFeeInclusive price alloc avail feeFn).entryTotal =
        totalCost price feeFn (sizeWholeSharesFeeInclusive price alloc avail feeFn).shares ∧
      (sizeWholeSharesFeeInclusive price alloc avail feeFn).entryTotal ≤ alloc ∧
      (sizeWholeSharesFeeInclusive price alloc avail feeFn).entryTotal ≤ avail) := by
  rcases @sizeWholeShares_spec price alloc avail feeFn hp ha with ⟨q₀, h1, hmax, hrun⟩ | ⟨hnone, reason, hrun⟩
  · rw [hrun]
    unfold sizeAt
    by_cases hcash : avail < totalCost price feeFn q₀
    · rw [if_pos hcash]
      refine ⟨fun q => ⟨nofun, ?_⟩, fun _ _ _ _ => ⟨rfl, rfl, rfl⟩, nofun⟩
      rintro ⟨-, hq, hle⟩
      rw [hq.unique hmax] at hle
      exact absurd hle (not_le.2 hcash)
    · rw [if_neg hcash]
      refine ⟨fun q => ⟨?_, ?_⟩, ?_, fun _ => ⟨rfl, hmax.1, not_lt.1 hcash⟩⟩
      · rintro ⟨-, rfl⟩
        exact ⟨h1, hmax, not_lt.1 hcash⟩
      · rintro ⟨-, hq, -⟩
        exact ⟨rfl, hmax.unique hq⟩
      · intro q _ hq hlt
        rw [hq.unique hmax] at hlt
        exact absurd hlt hcash
  · rw [hrun]
    refine ⟨fun q => ⟨nofun, ?_⟩, ?_, nofun⟩
    · rintro ⟨h1, hq, -⟩
      have hzero := hnone q hq.1
      omega
    · intro q h1 hq
      have hzero := hnone q hq.1
      omega

/-- Ten dollars at one dollar a share. -/
theorem sizing_maximal_sample : (sizeWholeSharesFeeInclusive 1 10 20 zeroFee).entryTotal ≤ 10 ∧
    (sizeWholeSharesFeeInclusive 1 10 20 zeroFee).entryTotal ≤ 20 := by
  have hok : (sizeWholeSharesFeeInclusive 1 10 20 zeroFee).ok = true := by decide +kernel
  exact ((sizing_maximal (by norm_num) (by norm_num)).2.2 hok).2

/-- A total that is refused for the cash is told in the result. -/
theorem refused_total_above_cash :
    ¬ ∀ (price alloc avail : ℚ) (feeFn : FeeFn), 0 < price → 0 < alloc →
      (sizeWholeSharesFeeInclusive price alloc avail feeFn).entryTotal ≤ alloc ∧
        (sizeWholeSharesFeeInclusive price alloc avail feeFn).entryTotal ≤ avail := by
  intro h
  have htotal : (sizeWholeSharesFeeInclusive 1 10 5 zeroFee).entryTotal = 10 := by decide +kernel
  have hcap := (h 1 10 5 zeroFee (by norm_num) (by norm_num)).2
  rw [htotal] at hcap
  norm_num at hcap

end TalonX.V2
