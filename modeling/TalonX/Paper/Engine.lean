import Mathlib.Tactic.FieldSimp
import Mathlib.Tactic.Linarith
import Mathlib.Tactic.Ring
import TalonX.Paper.Schemas

/-!
# Decisions and arithmetic of the paper engines

The pure functions of the engines: what an alert means for an open or a flat ticker, how a fill is priced and sized, when
a price closes a position, and what a sale realises.

- `decideTrade`, `decideLongTermTrade`: the two trigger mappings;
- `applySpread`, `calculateBuy`, `checkStopTake`, `fillGeometryIsValid`: prices and sizes;
- `calculateSellPnl`, `calculateAverageCostBasis`: money, with the equations that the ledger rests on.
-/

set_option autoImplicit false

namespace TalonX.Paper

/-! ## The intraday lane -/

inductive TradeDecision
  | buy (price : ℚ)
  | sell (price : ℚ)
  | ignored (price : ℚ) (reason : IgnoreReason)
  deriving DecidableEq

/-- `none` for an action that is no trading trigger. -/
def decideTrade (alert : ActionableAlert) (position : Option Position) : Option TradeDecision :=
  let price := alert.triggeringSignal.price
  match alert.action with
  | .confirmedBullish =>
    if position.isSome then some (.ignored price .positionAlreadyOpen) else some (.buy price)
  | .confirmedBearish | .contradicted =>
    if position.isNone then some (.ignored price .noActivePosition) else some (.sell price)
  | _ => none

/-- `(shares, cost)` of a purchase that spends no more than the cash. -/
def calculateBuy (cash allocationUsd price : ℚ) : Option (ℚ × ℚ) :=
  if price ≤ 0 then none
  else
    let spend := min allocationUsd cash
    if spend ≤ 0 then none else some (spend / price, spend)

/-- `(realized_pnl_usd, realized_pnl_pct)`. -/
def calculateSellPnl (shares entryPrice exitPrice : ℚ) : ℚ × ℚ :=
  let proceeds := shares * exitPrice
  let costBasis := shares * entryPrice
  (proceeds - costBasis, if entryPrice ≠ 0 then (exitPrice - entryPrice) / entryPrice * 100 else 0)

inductive ExitTrigger
  | stopLoss
  | takeProfit
  deriving DecidableEq, Repr

def checkStopTake (entryPrice currentPrice stopLossPct takeProfitPct : ℚ) (stopPrice targetPrice : Option ℚ) :
    Option ExitTrigger :=
  if entryPrice ≤ 0 then none
  else
    match stopPrice, targetPrice with
    | some stop, some target =>
      if entryPrice < target then
        if currentPrice ≤ stop then some .stopLoss
        else if target ≤ currentPrice then some .takeProfit
        else none
      else if stop ≤ currentPrice then some .stopLoss
      else if currentPrice ≤ target then some .takeProfit
      else none
    | _, _ =>
      let changePct := (currentPrice - entryPrice) / entryPrice
      if changePct ≤ -stopLossPct then some .stopLoss
      else if takeProfitPct ≤ changePct then some .takeProfit
      else none

inductive Side
  | buy
  | sell
  deriving DecidableEq, Repr

/-- A purchase fills above the quoted price, a sale below it. -/
def applySpread (price spreadBps : ℚ) (side : Side) : ℚ :=
  let halfSpread := price * (spreadBps / 2 / 10000)
  match side with
  | .buy => price + halfSpread
  | .sell => price - halfSpread

def fillGeometryIsValid (fillPrice : ℚ) (stopPrice targetPrice : Option ℚ) : Bool :=
  match stopPrice, targetPrice with
  | some stop, some target => stop < fillPrice && fillPrice < target
  | _, _ => true

/-! ## The long-term lane -/

inductive LongTermTradeDecision
  | buy (price : ℚ)
  | sellPartial (price trimFraction : ℚ)
  | sellFull (price : ℚ)
  | ignored (price : ℚ) (reason : IgnoreReason)
  deriving DecidableEq

/-- `none` for an action that is no trading trigger. -/
def decideLongTermTrade (alert : LongTermActionableAlert) (position : Option LongTermPosition) (rebalanceTrimPct : ℚ) :
    Option LongTermTradeDecision :=
  let price := alert.marketPrice
  match alert.action with
  | .highConvictionBuy =>
    if position.isSome then some (.ignored price .positionAlreadyOpen) else some (.buy price)
  | .takeProfitRebalance =>
    if position.isNone then some (.ignored price .noActivePosition) else some (.sellPartial price rebalanceTrimPct)
  | .underPerformRebalance =>
    if position.isNone then some (.ignored price .noActivePosition) else some (.sellFull price)
  | _ => none

def calculateAverageCostBasis (existingShares existingAvgCost newShares newPrice : ℚ) : ℚ :=
  let totalShares := existingShares + newShares
  if totalShares ≤ 0 then newPrice
  else (existingShares * existingAvgCost + newShares * newPrice) / totalShares

/-- `(realized_pnl_usd, realized_pnl_pct)` of the shares sold: the formula of `calculateSellPnl`. -/
def calculatePartialSellPnl (sharesToSell avgCostBasis exitPrice : ℚ) : ℚ × ℚ :=
  calculateSellPnl sharesToSell avgCostBasis exitPrice

/-! ## What the ledger rests on -/

/-- A sized purchase spends positive cash that is there, and its cost is that of its shares. -/
theorem calculateBuy_eq_some {cash allocationUsd price shares cost : ℚ}
    (h : calculateBuy cash allocationUsd price = some (shares, cost)) :
    0 < price ∧ 0 < cost ∧ cost ≤ cash ∧ cost ≤ allocationUsd ∧ cost = shares * price ∧ 0 < shares := by
  unfold calculateBuy at h
  split at h
  · cases h
  rename_i hprice
  dsimp only at h
  split at h
  · cases h
  rename_i hspend
  have hprice : 0 < price := not_le.1 hprice
  have hspend : 0 < min allocationUsd cash := not_le.1 hspend
  simp only [Option.some.injEq, Prod.mk.injEq] at h
  obtain ⟨rfl, rfl⟩ := h
  refine ⟨hprice, hspend, min_le_right _ _, min_le_left _ _, ?_, div_pos hspend hprice⟩
  rw [div_mul_cancel₀ _ hprice.ne']

/-- What a sale realises is its proceeds less the cost of the shares sold. -/
theorem calculateSellPnl_fst (shares entryPrice exitPrice : ℚ) :
    (calculateSellPnl shares entryPrice exitPrice).1 = shares * exitPrice - shares * entryPrice := rfl

/-- Averaging moves no money: the cost of all shares is the old cost and the new. -/
theorem mul_calculateAverageCostBasis {existingShares existingAvgCost newShares newPrice : ℚ}
    (h : 0 < existingShares + newShares) :
    (existingShares + newShares) * calculateAverageCostBasis existingShares existingAvgCost newShares newPrice =
      existingShares * existingAvgCost + newShares * newPrice := by
  rw [calculateAverageCostBasis, if_neg (not_le.2 h)]
  field_simp

/-- A spread of at most `20000` basis points keeps the price of a sale on the side of zero where the quote is. -/
theorem applySpread_sell_nonneg {price spreadBps : ℚ} (hp : 0 ≤ price) (hs : spreadBps ≤ 20000) :
    0 ≤ applySpread price spreadBps .sell := by
  have hfactor : applySpread price spreadBps .sell = price * (1 - spreadBps / 20000) := by
    simp only [applySpread]
    ring
  have hrest : 0 ≤ 1 - spreadBps / 20000 := by linarith
  rw [hfactor]
  exact mul_nonneg hp hrest

end TalonX.Paper
