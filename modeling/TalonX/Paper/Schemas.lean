import Mathlib.Algebra.Order.Ring.Rat
import TalonX.Ops.AccountBlocks

/-!
# The rows of the Original paper ledger

The wire contracts that the two paper-trading engines read, and one structure for each table of their common file. Money
and share quantities are exact rationals; a text column with a fixed set of values is an inductive type.

- `ActionableAlert`, `LongTermActionableAlert`, `MarketTickEvent`: what arrives;
- `Portfolio`: the cash pool that each lane has a row of;
- `Position`, `TradeRow`, `LongTermPosition`, `LongTermTradeRow`, `IgnoredDecision`: the tables.
-/

set_option autoImplicit false

namespace TalonX.Paper

open Ops V2

abbrev Ticker := String

/-! ## Timestamps -/

/-- A `datetime`: seconds, and whether it carries a time zone. -/
structure Timestamp where
  seconds : ℤ
  aware : Bool
  deriving DecidableEq, Repr

/-- `t - u`; raises when only one of them carries a time zone. -/
def Timestamp.minus (t u : Timestamp) : Option ℤ := if t.aware = u.aware then some (t.seconds - u.seconds) else none

/-! ## Contracts -/

inductive AlertAction
  | confirmedBullish
  | confirmedBearish
  | contradicted
  | degradedQuantAlert
  | stopLossExit
  | takeProfitExit
  | eodFlatLiquidation
  | highConvictionBuy
  | holdQuality
  | takeProfitRebalance
  | underPerformRebalance
  | dcaContribution
  deriving DecidableEq, Repr

inductive AlertSeverity
  | info
  | warning
  | critical
  deriving DecidableEq, Repr

def AlertSeverity.rank : AlertSeverity → ℕ
  | .info => 0
  | .warning => 1
  | .critical => 2

structure TriggeringSignalRef where
  price : ℚ
  stopPrice : Option ℚ := none
  targetPrice : Option ℚ := none
  deriving DecidableEq

structure ActionableAlert where
  ticker : Ticker
  action : AlertAction
  severity : AlertSeverity := .warning
  triggeringSignal : TriggeringSignalRef
  correlatedAt : Timestamp
  deriving DecidableEq

structure LongTermActionableAlert where
  ticker : Ticker
  action : AlertAction
  marketPrice : ℚ
  correlatedAt : Timestamp
  deriving DecidableEq

inductive TickEventType
  | trade
  | quote
  | bar
  deriving DecidableEq, Repr

structure MarketTickEvent where
  eventType : TickEventType
  symbol : Ticker
  close : Option ℚ
  deriving DecidableEq

structure PaperConfig where
  stopLossPct : ℚ := 5 / 1000
  takeProfitPct : ℚ := 1 / 100
  simulatedSpreadBps : ℚ := 5
  minEntrySeverity : AlertSeverity := .warning
  longTermInitialPositionUsd : ℚ := 2000
  rebalanceTrimPct : ℚ := 33 / 100

/-! ## Tables -/

/-- What the two portfolio rows have in common. -/
structure Portfolio where
  initialBalance : ℚ
  currentCash : ℚ
  totalRealizedPnlUsd : ℚ := 0
  winCount : ℕ := 0
  lossCount : ℕ := 0
  deriving DecidableEq

structure Position where
  ticker : Ticker
  shares : ℚ
  entryPrice : ℚ
  entryTimestamp : Timestamp
  costBasis : ℚ
  stopPrice : Option ℚ
  targetPrice : Option ℚ
  deriving DecidableEq

structure LongTermPosition where
  ticker : Ticker
  totalShares : ℚ
  avgCostBasis : ℚ
  firstEntryAt : Timestamp
  totalContributedUsd : ℚ
  deriving DecidableEq

inductive OrderType
  | buy
  | sell
  | dcaContribution
  deriving DecidableEq, Repr

structure TradeRow where
  ticker : Ticker
  orderType : OrderType
  executionPrice : ℚ
  shares : ℚ
  positionCost : ℚ
  entryPrice : Option ℚ := none
  realizedPnlUsd : Option ℚ := none
  realizedPnlPct : Option ℚ := none
  exitReason : Option AlertAction := none
  holdingDurationSeconds : Option ℤ := none
  portfolioCashAfter : ℚ
  timestamp : Timestamp
  deriving DecidableEq

structure LongTermTradeRow where
  ticker : Ticker
  orderType : OrderType
  executionPrice : ℚ
  shares : ℚ
  contributionCost : ℚ
  avgCostBasisAfter : Option ℚ
  totalSharesAfter : Option ℚ
  realizedPnlUsd : Option ℚ := none
  realizedPnlPct : Option ℚ := none
  holdingPeriodDays : Option ℤ := none
  portfolioCashAfter : ℚ
  triggeringAction : AlertAction
  timestamp : Timestamp
  deriving DecidableEq

inductive Horizon
  | intraday
  | longTerm
  deriving DecidableEq, Repr

/-- Why an alert did not become a trade. -/
inductive IgnoreReason
  | accountBlocked (blocks : List (BlockReason × String))
  | insufficientCashAtExecution (cost cash : ℚ)
  | insufficientCash
  | belowMinSeverity
  | degradedNotTradable
  | positionAlreadyOpen
  | noActivePosition
  | fillGeometryInvalid
  deriving DecidableEq

structure IgnoredDecision where
  ticker : Ticker
  reason : IgnoreReason
  triggeringAction : AlertAction
  price : ℚ
  horizon : Horizon
  timestamp : Timestamp
  deriving DecidableEq

end TalonX.Paper
