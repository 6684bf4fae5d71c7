import TalonX.Paper.Engine

/-!
# The Original paper ledger

The methods of `PaperTradingStore` on the tables of the file, one function for each statement that writes and one for
each method. A method that returns `None` gives no execution; a method that raises gives `none`.

- `PaperStore`: the tables; the intraday and the long-term lane share the file, the prices and the block tables;
- `executeBuy`, `executeSell`: the intraday lane;
- `executeLongTermBuy`, `executeDcaContribution`, `executeLongTermSell`: the long-term lane.
-/

set_option autoImplicit false

namespace TalonX.Paper

open Transact Ops V2

def originalIntradayAccountId : String := "ORIGINAL_INTRADAY"

def originalLongtermAccountId : String := "ORIGINAL_LONGTERM"

/-- The residual position that a full exit deletes: at most `1e-9` shares, at their average cost. -/
structure Discard where
  shares : ℚ
  avgCostBasis : ℚ
  small : shares ≤ 1 / 1000000000

structure PaperStore where
  portfolio : Portfolio
  tradeAllocationUsd : ℚ
  positions : Table Position.ticker
  tradeHistory : List TradeRow
  latestPrices : Ticker → Option ℚ
  ignoredDecisions : List IgnoredDecision
  longTermPortfolio : Portfolio
  dcaContributionUsd : ℚ
  lastDcaAt : Option Timestamp
  longTermPositions : Table LongTermPosition.ticker
  longTermTradeHistory : List LongTermTradeRow
  blocks : BlockTables
  /-- History variable: what the full exits so far have deleted. -/
  discarded : List Discard

namespace PaperStore

/-- A freshly initialised file. -/
def init (initialBalance tradeAllocationUsd longTermInitialBalance dcaContributionUsd : ℚ) : PaperStore where
  portfolio := { initialBalance := initialBalance, currentCash := initialBalance }
  tradeAllocationUsd := tradeAllocationUsd
  positions := Table.empty
  tradeHistory := []
  latestPrices := fun _ => none
  ignoredDecisions := []
  longTermPortfolio := { initialBalance := longTermInitialBalance, currentCash := longTermInitialBalance }
  dcaContributionUsd := dcaContributionUsd
  lastDcaAt := none
  longTermPositions := Table.empty
  longTermTradeHistory := []
  blocks := BlockTables.empty
  discarded := []

end PaperStore

/-! ## The pools -/

namespace Portfolio

variable (p : Portfolio)

/-- `UPDATE … SET current_cash = ?`. -/
def setCash (v : ℚ) : Portfolio := { p with currentCash := v }

/-- The portfolio row after a sale. -/
def settle (proceeds pnlUsd : ℚ) : Portfolio :=
  { p with
    currentCash := p.currentCash + proceeds, totalRealizedPnlUsd := p.totalRealizedPnlUsd + pnlUsd
    winCount := p.winCount + if 0 < pnlUsd then 1 else 0
    lossCount := p.lossCount + if 0 < pnlUsd then 0 else 1 }

end Portfolio

namespace PaperStore

variable (s : PaperStore)

/-! ## Reads and single writes -/

def getPosition (ticker : Ticker) : Option Position := s.positions.get ticker.toUpper

def getOpenPositions : List Position := s.positions.rows.mergeSort fun p q => p.ticker ≤ q.ticker

def getLongTermPosition (ticker : Ticker) : Option LongTermPosition := s.longTermPositions.get ticker.toUpper

def getOpenLongTermPositions : List LongTermPosition :=
  s.longTermPositions.rows.mergeSort fun p q => p.ticker ≤ q.ticker

/-- The gate of an account. -/
def blockedReason (accountId : String) : Option (List (BlockReason × String)) := s.blocks.blockedReason accountId

def updateLatestPrice (ticker : Ticker) (price : ℚ) : PaperStore :=
  { s with latestPrices := Function.update s.latestPrices ticker.toUpper (some price) }

def updateTradeAllocation (amount : ℚ) : PaperStore := { s with tradeAllocationUsd := amount }

def updateDcaContributionAmount (amount : ℚ) : PaperStore := { s with dcaContributionUsd := amount }

def setLastDcaAt (t : Timestamp) : PaperStore := { s with lastDcaAt := some t }

def recordIgnored (ticker : Ticker) (reason : IgnoreReason) (action : AlertAction) (price : ℚ) (t : Timestamp)
    (horizon : Horizon) : PaperStore :=
  { s with
    ignoredDecisions := s.ignoredDecisions ++ [⟨ticker.toUpper, reason, action, price, horizon, t⟩] }

def recordAccountBlock (now : Instant) (accountId : String) (reasonType : BlockReason) (reference : String) :
    PaperStore := { s with blocks := s.blocks.recordBlock now accountId reasonType reference }

def attemptBlockClearance (now : Instant) (q : ClearanceRequest) (allow : Bool) : Option PaperStore :=
  (s.blocks.attemptClearance now q allow).map fun r => { s with blocks := r.2 }

/-! ## The intraday lane -/

/-- `UPDATE portfolio_state SET current_cash = ?`. -/
def setCash (v : ℚ) : PaperStore := { s with portfolio := s.portfolio.setCash v }

/-- `INSERT INTO positions`: an `IntegrityError` when the ticker has a row. -/
def insertPosition (p : Position) : Option PaperStore :=
  (s.positions.insert? p).map fun ps => { s with positions := ps }

def appendTrade (t : TradeRow) : PaperStore := { s with tradeHistory := s.tradeHistory ++ [t] }

/-- What a purchase would be refused for, in order. -/
def refuseBuy (accountId : String) (cash cost : ℚ) : Option IgnoreReason :=
  match s.blockedReason accountId with
  | some blocks => some (.accountBlocked blocks)
  | none => if cash + 1 / 1000000 < cost then some (.insufficientCashAtExecution cost cash) else none

def buyPosition (ticker : Ticker) (shares price cost : ℚ) (t : Timestamp) (stop target : Option ℚ) : Position :=
  ⟨ticker.toUpper, shares, price, t, cost, stop, target⟩

def buyTrade (ticker : Ticker) (shares price cost cashAfter : ℚ) (t : Timestamp) : TradeRow where
  ticker := ticker.toUpper
  orderType := .buy
  executionPrice := price
  shares := shares
  positionCost := cost
  portfolioCashAfter := cashAfter
  timestamp := t

/-- `none` when the ticker has a position already, which raises. -/
def executeBuy (ticker : Ticker) (shares price cost : ℚ) (t : Timestamp) (stop target : Option ℚ) :
    Option (Option TradeRow × PaperStore) :=
  match s.refuseBuy originalIntradayAccountId s.portfolio.currentCash cost with
  | some r => some (none, s.recordIgnored ticker r .confirmedBullish price t .intraday)
  | none =>
    let newCash := s.portfolio.currentCash - cost
    let trade := buyTrade ticker shares price cost newCash t
    ((s.setCash newCash).insertPosition (buyPosition ticker shares price cost t stop target)).map fun s' =>
      (some trade, s'.appendTrade trade)

def sellTrade (pos : Position) (exitPrice : ℚ) (t : Timestamp) (action : AlertAction) (held : ℤ) (cashAfter : ℚ) :
    TradeRow :=
  let pnl := calculateSellPnl pos.shares pos.entryPrice exitPrice
  { ticker := pos.ticker, orderType := .sell, executionPrice := exitPrice, shares := pos.shares,
    positionCost := pos.costBasis, entryPrice := some pos.entryPrice, realizedPnlUsd := some pnl.1,
    realizedPnlPct := some pnl.2, exitReason := some action, holdingDurationSeconds := some held,
    portfolioCashAfter := cashAfter, timestamp := t }

/-- `UPDATE portfolio_state SET current_cash = ?, total_realized_pnl_usd = ?, win_count = ?, loss_count = ?`. -/
def setPortfolio (p : Portfolio) : PaperStore :=
  { s with portfolio := { p with initialBalance := s.portfolio.initialBalance } }

def deletePosition (ticker : Ticker) : PaperStore := { s with positions := s.positions.delete (·.ticker = ticker) }

/-- No execution without a position; raises when only one of the two timestamps carries a time zone. -/
def executeSell (ticker : Ticker) (exitPrice : ℚ) (t : Timestamp) (action : AlertAction) :
    Option (Option TradeRow × PaperStore) :=
  match s.getPosition ticker with
  | none => some (none, s)
  | some pos =>
    match t.minus pos.entryTimestamp with
    | none => none
    | some held =>
      let portfolio := s.portfolio.settle (pos.shares * exitPrice)
        (calculateSellPnl pos.shares pos.entryPrice exitPrice).1
      let trade := sellTrade pos exitPrice t action held portfolio.currentCash
      some (some trade, ((s.setPortfolio portfolio).deletePosition pos.ticker).appendTrade trade)

/-! ## The long-term lane -/

def setLongTermCash (v : ℚ) : PaperStore := { s with longTermPortfolio := s.longTermPortfolio.setCash v }

/-- `INSERT INTO long_term_positions`: an `IntegrityError` when the ticker has a row. -/
def insertLongTermPosition (p : LongTermPosition) : Option PaperStore :=
  (s.longTermPositions.insert? p).map fun ps => { s with longTermPositions := ps }

def appendLongTermTrade (t : LongTermTradeRow) : PaperStore :=
  { s with longTermTradeHistory := s.longTermTradeHistory ++ [t] }

def longTermBuyTrade (ticker : Ticker) (shares price cost cashAfter : ℚ) (t : Timestamp) : LongTermTradeRow where
  ticker := ticker.toUpper
  orderType := .buy
  executionPrice := price
  shares := shares
  contributionCost := cost
  avgCostBasisAfter := some price
  totalSharesAfter := some shares
  portfolioCashAfter := cashAfter
  triggeringAction := .highConvictionBuy
  timestamp := t

/-- `none` when the ticker has a position already, which raises. -/
def executeLongTermBuy (ticker : Ticker) (shares price cost : ℚ) (t : Timestamp) :
    Option (Option LongTermTradeRow × PaperStore) :=
  match s.refuseBuy originalLongtermAccountId s.longTermPortfolio.currentCash cost with
  | some r => some (none, s.recordIgnored ticker r .highConvictionBuy price t .longTerm)
  | none =>
    let newCash := s.longTermPortfolio.currentCash - cost
    let trade := longTermBuyTrade ticker shares price cost newCash t
    ((s.setLongTermCash newCash).insertLongTermPosition ⟨ticker.toUpper, shares, price, t, cost⟩).map fun s' =>
      (some trade, s'.appendLongTermTrade trade)

/-- The position after a contribution. -/
def contribute (contributionUsd price : ℚ) (p : LongTermPosition) : LongTermPosition :=
  { p with
    totalShares := p.totalShares + contributionUsd / price
    avgCostBasis := calculateAverageCostBasis p.totalShares p.avgCostBasis (contributionUsd / price) price
    totalContributedUsd := p.totalContributedUsd + contributionUsd }

/-- `UPDATE long_term_positions SET total_shares = ?, avg_cost_basis = ?, total_contributed_usd = ? WHERE ticker = ?`. -/
def updateLongTermPosition (p : LongTermPosition) : PaperStore :=
  { s with
    longTermPositions := s.longTermPositions.update (·.ticker = p.ticker)
      (fun q => { p with ticker := q.ticker, firstEntryAt := q.firstEntryAt }) fun _ => rfl }

def dcaTrade (p : LongTermPosition) (contributionUsd price cashAfter : ℚ) (t : Timestamp) : LongTermTradeRow :=
  let p' := contribute contributionUsd price p
  { ticker := p.ticker, orderType := .dcaContribution, executionPrice := price, shares := contributionUsd / price,
    contributionCost := contributionUsd, avgCostBasisAfter := some p'.avgCostBasis,
    totalSharesAfter := some p'.totalShares, portfolioCashAfter := cashAfter, triggeringAction := .dcaContribution,
    timestamp := t }

def executeDcaContribution (ticker : Ticker) (contributionUsd price : ℚ) (t : Timestamp) :
    Option LongTermTradeRow × PaperStore :=
  match s.blockedReason originalLongtermAccountId with
  | some blocks => (none, s.recordIgnored ticker (.accountBlocked blocks) .dcaContribution price t .longTerm)
  | none =>
    match s.getLongTermPosition ticker with
    | none => (none, s)
    | some pos =>
      if price ≤ 0 ∨ contributionUsd ≤ 0 then (none, s)
      else
        let cash := s.longTermPortfolio.currentCash
        if cash + 1 / 1000000 < contributionUsd then
          (none, s.recordIgnored ticker (.insufficientCashAtExecution contributionUsd cash) .dcaContribution price t
            .longTerm)
        else
          let trade := dcaTrade pos contributionUsd price (cash - contributionUsd) t
          (some trade, ((s.setLongTermCash (cash - contributionUsd)).updateLongTermPosition
            (contribute contributionUsd price pos)).appendLongTermTrade trade)

/-- `min(max(trim_fraction, 0.0), 1.0)`. -/
def clampFraction (trimFraction : ℚ) : ℚ := min (max trimFraction 0) 1

def setLongTermPortfolio (p : Portfolio) : PaperStore :=
  { s with longTermPortfolio := { p with initialBalance := s.longTermPortfolio.initialBalance } }

/-- `UPDATE long_term_positions SET total_shares = ? WHERE ticker = ?`. -/
def setTotalShares (ticker : Ticker) (v : ℚ) : PaperStore :=
  { s with
    longTermPositions := s.longTermPositions.update (·.ticker = ticker) (fun q => { q with totalShares := v })
      fun _ => rfl }

/-- The position after a sale of a part of it. -/
def trimmed (fraction : ℚ) (p : LongTermPosition) : LongTermPosition :=
  { p with totalShares := p.totalShares - p.totalShares * fraction }

/-- A residual of at most `1e-9` shares is deleted with the row. -/
def trimPosition (fraction : ℚ) (p : LongTermPosition) : PaperStore :=
  if hsmall : (trimmed fraction p).totalShares ≤ 1 / 1000000000 then
    { s with
      longTermPositions := s.longTermPositions.delete (·.ticker = p.ticker)
      discarded := s.discarded ++ [⟨(trimmed fraction p).totalShares, p.avgCostBasis, hsmall⟩] }
  else s.setTotalShares p.ticker (trimmed fraction p).totalShares

def longTermSellTrade (p : LongTermPosition) (fraction exitPrice : ℚ) (t : Timestamp) (action : AlertAction) (days : ℤ)
    (cashAfter : ℚ) : LongTermTradeRow :=
  let sold := p.totalShares * fraction
  let pnl := calculatePartialSellPnl sold p.avgCostBasis exitPrice
  let fullExit : Bool := (trimmed fraction p).totalShares ≤ 1 / 1000000000
  { ticker := p.ticker, orderType := .sell, executionPrice := exitPrice, shares := sold,
    contributionCost := sold * exitPrice, avgCostBasisAfter := if fullExit then none else some p.avgCostBasis,
    totalSharesAfter := if fullExit then none else some (trimmed fraction p).totalShares,
    realizedPnlUsd := some pnl.1, realizedPnlPct := some pnl.2, holdingPeriodDays := some days,
    portfolioCashAfter := cashAfter, triggeringAction := action, timestamp := t }

/-- No execution without a position; raises when only one of the two timestamps carries a time zone. -/
def executeLongTermSell (ticker : Ticker) (trimFraction exitPrice : ℚ) (t : Timestamp) (action : AlertAction) :
    Option (Option LongTermTradeRow × PaperStore) :=
  match s.getLongTermPosition ticker with
  | none => some (none, s)
  | some pos =>
    match t.minus pos.firstEntryAt with
    | none => none
    | some held =>
      let fraction := clampFraction trimFraction
      let sold := pos.totalShares * fraction
      let portfolio := s.longTermPortfolio.settle (sold * exitPrice)
        (calculatePartialSellPnl sold pos.avgCostBasis exitPrice).1
      let trade := longTermSellTrade pos fraction exitPrice t action (held / 86400) portfolio.currentCash
      some (some trade, ((s.setLongTermPortfolio portfolio).trimPosition fraction pos).appendLongTermTrade trade)

end PaperStore

end TalonX.Paper
