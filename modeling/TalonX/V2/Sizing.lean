import Mathlib.Algebra.Order.Field.Rat
import Mathlib.Algebra.Order.Floor.Ring
import Mathlib.Data.Rat.Floor
import Mathlib.Tactic.Linarith
import Mathlib.Tactic.Positivity
import TalonX.V2.Schemas

/-!
# Whole-share sizing and exit economics

- `sizeWholeSharesFeeInclusive`: the backward search for the largest quantity whose fee-inclusive total fits the
  allocation, refused when it does not fit the available cash (`sizeWholeSharesFeeInclusive_ok`,
  `sizeWholeSharesFeeInclusive_insufficient`);
- `computeExitEconomics`: proceeds net of the exit fee, and the realised result against the recorded cost.
-/

set_option autoImplicit false

namespace TalonX.V2

/-- A cost model `(quantity, price) ↦ fee`; `none` is a `None` or non-finite result. -/
abbrev FeeFn := ℚ → ℚ → Option ℚ

def zeroFee : FeeFn := fun _ _ => some 0

/-- The fee the source uses: a missing, non-finite or non-positive result counts as zero. -/
def FeeFn.fee (feeFn : FeeFn) (quantity price : ℚ) : ℚ :=
  match feeFn quantity price with
  | some x => if 0 < x then x else 0
  | none => 0

theorem FeeFn.fee_nonneg (feeFn : FeeFn) (quantity price : ℚ) : 0 ≤ feeFn.fee quantity price := by
  unfold FeeFn.fee
  split
  · split
    · rename_i h; exact h.le
    · exact le_refl 0
  · exact le_refl 0

@[simp] theorem zeroFee_fee (quantity price : ℚ) : zeroFee.fee quantity price = 0 := rfl

structure SizingResult where
  shares : ℕ
  entryNotional : ℚ
  entryFee : ℚ
  entryTotal : ℚ
  ok : Bool
  reason : SizingReason
  deriving DecidableEq

def SizingResult.refused (r : SizingReason) : SizingResult := ⟨0, 0, 0, 0, false, r⟩

/-- `for q in range(q_max, 0, -1)`. -/
def sizeSearch (price allocationUsd availableCash : ℚ) (feeFn : FeeFn) : ℕ → SizingResult
  | 0 => .refused .oneSharePlusFeeExceedsAllocation
  | q + 1 =>
    let fee := feeFn.fee (q + 1 : ℕ) price
    let notional := price * (q + 1 : ℕ)
    if notional + fee ≤ allocationUsd then
      if availableCash < notional + fee then ⟨0, notional, fee, notional + fee, false, .insufficientAvailableCash⟩
      else ⟨q + 1, notional, fee, notional + fee, true, .ok⟩
    else sizeSearch price allocationUsd availableCash feeFn q

def sizeWholeSharesFeeInclusive (price allocationUsd availableCash : ℚ) (feeFn : FeeFn) : SizingResult :=
  if price ≤ 0 then .refused .badPrice
  else if allocationUsd ≤ 0 then .refused .noAllocation
  else
    let qMax := ⌊allocationUsd / price⌋.toNat
    if qMax < 1 then .refused .allocationBelowOneShare
    else sizeSearch price allocationUsd availableCash feeFn qMax

/-- An accepted quantity costs its notional and its fee, and fits the allocation and the available cash. -/
theorem sizeSearch_ok {price alloc avail : ℚ} {feeFn : FeeFn} (hp : 0 < price) : ∀ {n : ℕ} {z : SizingResult},
    sizeSearch price alloc avail feeFn n = z → z.ok = true →
      0 < z.entryTotal ∧ z.entryTotal = z.entryNotional + z.entryFee ∧ z.entryTotal ≤ alloc ∧ z.entryTotal ≤ avail ∧
        1 ≤ z.shares
  | 0, z, h, hz => by subst h; cases hz
  | n + 1, z, h, hz => by
    simp only [sizeSearch] at h
    split at h
    · rename_i hfit
      split at h
      · subst h; cases hz
      · rename_i havail
        subst h
        have hn : (0 : ℚ) < price * (n + 1 : ℕ) := mul_pos hp (by positivity)
        have hf := feeFn.fee_nonneg (n + 1 : ℕ) price
        exact ⟨by dsimp only; linarith, rfl, hfit, not_lt.1 havail, Nat.succ_pos n⟩
    · exact sizeSearch_ok hp h hz

theorem sizeSearch_insufficient {price alloc avail : ℚ} {feeFn : FeeFn} : ∀ {n : ℕ},
    (sizeSearch price alloc avail feeFn n).reason = .insufficientAvailableCash → avail < alloc
  | 0, h => by cases h
  | n + 1, h => by
    simp only [sizeSearch] at h
    split at h
    · rename_i hfit
      split at h
      · rename_i havail; exact havail.trans_le hfit
      · cases h
    · exact sizeSearch_insufficient h

theorem sizeWholeSharesFeeInclusive_ok {price alloc avail : ℚ} {feeFn : FeeFn} {z : SizingResult}
    (h : sizeWholeSharesFeeInclusive price alloc avail feeFn = z) (hz : z.ok = true) :
    0 < price ∧ 0 < z.entryTotal ∧ z.entryTotal = z.entryNotional + z.entryFee ∧ z.entryTotal ≤ alloc ∧
      z.entryTotal ≤ avail ∧ 1 ≤ z.shares := by
  unfold sizeWholeSharesFeeInclusive at h
  split at h
  · subst h; cases hz
  · rename_i hp
    split at h
    · subst h; cases hz
    · dsimp only at h
      split at h
      · subst h; cases hz
      · exact ⟨not_le.1 hp, sizeSearch_ok (not_le.1 hp) h hz⟩

/-- Cash is the reason only when less than the allocation is available. -/
theorem sizeWholeSharesFeeInclusive_insufficient {price alloc avail : ℚ} {feeFn : FeeFn}
    (h : (sizeWholeSharesFeeInclusive price alloc avail feeFn).reason = .insufficientAvailableCash) :
    avail < alloc := by
  unfold sizeWholeSharesFeeInclusive at h
  split at h
  · cases h
  · split at h
    · cases h
    · dsimp only at h
      split at h
      · cases h
      · exact sizeSearch_insufficient h

structure ExitEconomics where
  exitNotional : ℚ
  exitFee : ℚ
  exitNet : ℚ
  realizedPnlUsd : ℚ
  realizedPnlPct : ℚ

def computeExitEconomics (shares exitPrice entryTotal : ℚ) (feeFn : FeeFn) : ExitEconomics :=
  let notional := shares * exitPrice
  let fee := feeFn.fee shares exitPrice
  let net := notional - fee
  let pnl := net - entryTotal
  ⟨notional, fee, net, pnl, if entryTotal ≠ 0 then pnl / entryTotal * 100 else 0⟩

/-- The realised result is the proceeds less the recorded cost. -/
theorem realizedPnlUsd_computeExitEconomics (shares exitPrice entryTotal : ℚ) (feeFn : FeeFn) :
    (computeExitEconomics shares exitPrice entryTotal feeFn).realizedPnlUsd =
      (computeExitEconomics shares exitPrice entryTotal feeFn).exitNet - entryTotal := rfl

/-- Proceeds are not negative when the fee is at most the notional. -/
theorem exitNet_nonneg {shares exitPrice entryTotal : ℚ} {feeFn : FeeFn}
    (h : feeFn.fee shares exitPrice ≤ shares * exitPrice) :
    0 ≤ (computeExitEconomics shares exitPrice entryTotal feeFn).exitNet := sub_nonneg.2 h

end TalonX.V2
