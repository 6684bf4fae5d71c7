import TalonX.Paper.Instances
import TalonX.Transact.OpenTransaction

/-!
# The public methods of one paper store

The methods of a store that is the only connection of its file, with their arguments as a caller may give them: a float
may be `nan`, which is stored as `NULL` and which no comparison holds for. Every money column is `NOT NULL`.

- `Amount`: a finite float or `nan`;
- `buy`, `sell`, `longTermBuy`, `dca`, `longTermSell`: the trades; `buy_some` and its siblings: on finite arguments they
  are the methods of an instance;
- `TradeCall`, `PublicMethod`: the trades, and every method that commits.
-/

set_option autoImplicit false

namespace TalonX.Paper

open Transact Ops V2

/-- A float argument; `none` is `nan`. -/
abbrev Amount := Option ℚ

/-- A program of the one store. -/
abbrev StoreProg (α : Type) := InstanceProg Unit α

namespace StoreProg

/-- A row in `ignored_decisions`, and no execution. -/
def refuse {α : Type} (price : Amount) (g : ℚ → PaperStore → PaperStore) : StoreProg (Option α) := do
  WalFile.attempt .ignore () fun s => price.map (g · s)
  WalFile.doCommit .commit ()
  pure none

/-! ## The intraday lane -/

def buyRows (ticker : Ticker) (shares price cost : Amount) (t : Timestamp) (stop target : Option ℚ) (cash : ℚ) :
    StoreProg (Option TradeRow) := do
  let position := do pure (PaperStore.buyPosition ticker (← shares) (← price) (← cost) t stop target)
  let trade := do pure (PaperStore.buyTrade ticker (← shares) (← price) (← cost) (cash - (← cost)) t)
  WalFile.attempt (.move .intraday .buy cash (cost.getD 0)) () fun s => cost.map fun c => s.setCash (cash - c)
  WalFile.attempt (.book .intraday .buy (cost.getD 0)) () fun s => position.bind s.insertPosition
  WalFile.attempt (.book .intraday .buy (cost.getD 0)) () fun s => trade.map s.appendTrade
  let _ ← WalFile.select .inspect () fun s => (s.portfolio.totalRealizedPnlUsd, s.portfolio.initialBalance)
  WalFile.doCommit .commit ()
  pure trade

/-- `execute_buy`. -/
def buy (ticker : Ticker) (shares price cost : Amount) (t : Timestamp) (stop target : Option ℚ) :
    StoreProg (Option TradeRow) := do
  acquire
  let br ← WalFile.select .select () (·.blockedReason originalIntradayAccountId)
  match br with
  | some blocks => refuse price fun p => (·.recordIgnored ticker (.accountBlocked blocks) .confirmedBullish p t .intraday)
  | none => do
    let cash ← WalFile.select .select () (·.portfolio.currentCash)
    match cost.filter (cash + 1 / 1000000 < ·) with
    | some c =>
      refuse price fun p =>
        (·.recordIgnored ticker (.insufficientCashAtExecution c cash) .confirmedBullish p t .intraday)
    | none => buyRows ticker shares price cost t stop target cash

def sellRows (pos : Position) (exitPrice : Amount) (t : Timestamp) (action : AlertAction) (held : ℤ)
    (portfolio : Portfolio) : StoreProg (Option TradeRow) := do
  let settled := exitPrice.map fun p =>
    portfolio.settle (pos.shares * p) (calculateSellPnl pos.shares pos.entryPrice p).1
  let trade := do pure (PaperStore.sellTrade pos (← exitPrice) t action held (← settled).currentCash)
  let proceeds := pos.shares * exitPrice.getD 0
  WalFile.attempt (.move .intraday .sell portfolio.currentCash proceeds) () fun s => settled.map s.setPortfolio
  WalFile.write (.book .intraday .sell proceeds) () (·.deletePosition pos.ticker)
  WalFile.attempt (.book .intraday .sell proceeds) () fun s => trade.map s.appendTrade
  WalFile.doCommit .commit ()
  pure trade

/-- `execute_sell`. -/
def sell (ticker : Ticker) (exitPrice : Amount) (t : Timestamp) (action : AlertAction) :
    StoreProg (Option TradeRow) := do
  acquire
  let row ← WalFile.select .select () (·.getPosition ticker)
  match row with
  | none => pure none
  | some pos =>
    match t.minus pos.entryTimestamp with
    | none => .raise
    | some held => do
      let portfolio ← WalFile.select .select () (·.portfolio)
      sellRows pos exitPrice t action held portfolio

/-! ## The long-term lane -/

def longTermBuyRows (ticker : Ticker) (shares price cost : Amount) (t : Timestamp) (cash : ℚ) :
    StoreProg (Option LongTermTradeRow) := do
  let position := do pure (⟨ticker.toUpper, ← shares, ← price, t, ← cost⟩ : LongTermPosition)
  let trade := do pure (PaperStore.longTermBuyTrade ticker (← shares) (← price) (← cost) (cash - (← cost)) t)
  WalFile.attempt (.move .longTerm .buy cash (cost.getD 0)) () fun s => cost.map fun c => s.setLongTermCash (cash - c)
  WalFile.attempt (.book .longTerm .buy (cost.getD 0)) () fun s => position.bind s.insertLongTermPosition
  WalFile.attempt (.book .longTerm .buy (cost.getD 0)) () fun s => trade.map s.appendLongTermTrade
  WalFile.doCommit .commit ()
  pure trade

/-- `execute_long_term_buy`. -/
def longTermBuy (ticker : Ticker) (shares price cost : Amount) (t : Timestamp) : StoreProg (Option LongTermTradeRow) := do
  acquire
  let br ← WalFile.select .select () (·.blockedReason originalLongtermAccountId)
  match br with
  | some blocks =>
    refuse price fun p => (·.recordIgnored ticker (.accountBlocked blocks) .highConvictionBuy p t .longTerm)
  | none => do
    let cash ← WalFile.select .select () (·.longTermPortfolio.currentCash)
    match cost.filter (cash + 1 / 1000000 < ·) with
    | some c =>
      refuse price fun p =>
        (·.recordIgnored ticker (.insufficientCashAtExecution c cash) .highConvictionBuy p t .longTerm)
    | none => longTermBuyRows ticker shares price cost t cash

def dcaRows (pos : LongTermPosition) (contributionUsd price : Amount) (t : Timestamp) (cash : ℚ) :
    StoreProg (Option LongTermTradeRow) := do
  let contributed := do pure (PaperStore.contribute (← contributionUsd) (← price) pos)
  let trade := do pure (PaperStore.dcaTrade pos (← contributionUsd) (← price) (cash - (← contributionUsd)) t)
  let amount := contributionUsd.getD 0
  WalFile.attempt (.move .longTerm .buy cash amount) () fun s => contributionUsd.map fun c => s.setLongTermCash (cash - c)
  WalFile.attempt (.book .longTerm .buy amount) () fun s => contributed.map s.updateLongTermPosition
  WalFile.attempt (.book .longTerm .buy amount) () fun s => trade.map s.appendLongTermTrade
  WalFile.doCommit .commit ()
  pure trade

/-- `execute_dca_contribution`. -/
def dca (ticker : Ticker) (contributionUsd price : Amount) (t : Timestamp) : StoreProg (Option LongTermTradeRow) := do
  acquire
  let br ← WalFile.select .select () (·.blockedReason originalLongtermAccountId)
  match br with
  | some blocks => refuse price fun p => (·.recordIgnored ticker (.accountBlocked blocks) .dcaContribution p t .longTerm)
  | none => do
    let row ← WalFile.select .select () (·.getLongTermPosition ticker)
    match row with
    | none => pure none
    | some pos =>
      if price.any (· ≤ 0) ∨ contributionUsd.any (· ≤ 0) then pure none
      else do
        let cash ← WalFile.select .select () (·.longTermPortfolio.currentCash)
        match contributionUsd.filter (cash + 1 / 1000000 < ·) with
        | some c =>
          refuse price fun p =>
            (·.recordIgnored ticker (.insufficientCashAtExecution c cash) .dcaContribution p t .longTerm)
        | none => dcaRows pos contributionUsd price t cash

def longTermSellRows (pos : LongTermPosition) (fraction exitPrice : Amount) (t : Timestamp) (action : AlertAction)
    (held : ℤ) (portfolio : Portfolio) : StoreProg (Option LongTermTradeRow) := do
  let settled := do
    let sold := pos.totalShares * (← fraction)
    let exit ← exitPrice
    pure (portfolio.settle (sold * exit) (calculatePartialSellPnl sold pos.avgCostBasis exit).1)
  let trade := do
    pure (PaperStore.longTermSellTrade pos (← fraction) (← exitPrice) t action (held / 86400) (← settled).currentCash)
  let proceeds := pos.totalShares * fraction.getD 0 * exitPrice.getD 0
  WalFile.attempt (.move .longTerm .sell portfolio.currentCash proceeds) () fun s => settled.map s.setLongTermPortfolio
  WalFile.attempt (.book .longTerm .sell proceeds) () fun s => fraction.map (s.trimPosition · pos)
  WalFile.attempt (.book .longTerm .sell proceeds) () fun s => trade.map s.appendLongTermTrade
  WalFile.doCommit .commit ()
  pure trade

/-- `execute_long_term_sell`: the clamp leaves `nan` as it is. -/
def longTermSell (ticker : Ticker) (trimFraction exitPrice : Amount) (t : Timestamp) (action : AlertAction) :
    StoreProg (Option LongTermTradeRow) := do
  acquire
  let row ← WalFile.select .select () (·.getLongTermPosition ticker)
  match row with
  | none => pure none
  | some pos =>
    match t.minus pos.firstEntryAt with
    | none => .raise
    | some held => do
      let portfolio ← WalFile.select .select () (·.longTermPortfolio)
      longTermSellRows pos (trimFraction.map PaperStore.clampFraction) exitPrice t action held portfolio

/-! ## Finite arguments -/

theorem filter_some (cash c : ℚ) :
    (some c).filter (cash + 1 / 1000000 < ·) = if cash + 1 / 1000000 < c then some c else none := by
  simp [Option.filter]

theorem buy_some (ticker : Ticker) (shares price cost : ℚ) (t : Timestamp) (stop target : Option ℚ) :
    buy ticker (some shares) (some price) (some cost) t stop target =
      executeBuy () ticker shares price cost t stop target := by
  unfold buy executeBuy
  congr 1
  funext _
  congr 1
  funext br
  cases br with
  | some blocks => rfl
  | none =>
    show Prog.bind _ _ = Prog.bind _ _
    congr 1
    funext cash
    rw [filter_some]
    by_cases h : cash + 1 / 1000000 < cost
    · simp only [if_pos h]
      rfl
    · simp only [if_neg h]
      rfl

theorem sell_some (ticker : Ticker) (exitPrice : ℚ) (t : Timestamp) (action : AlertAction) :
    sell ticker (some exitPrice) t action = executeSell () ticker exitPrice t action := rfl

theorem longTermBuy_some (ticker : Ticker) (shares price cost : ℚ) (t : Timestamp) :
    longTermBuy ticker (some shares) (some price) (some cost) t = executeLongTermBuy () ticker shares price cost t := by
  unfold longTermBuy executeLongTermBuy
  congr 1
  funext _
  congr 1
  funext br
  cases br with
  | some blocks => rfl
  | none =>
    show Prog.bind _ _ = Prog.bind _ _
    congr 1
    funext cash
    rw [filter_some]
    by_cases h : cash + 1 / 1000000 < cost
    · simp only [if_pos h]
      rfl
    · simp only [if_neg h]
      rfl

theorem dca_some (ticker : Ticker) (contributionUsd price : ℚ) (t : Timestamp) :
    dca ticker (some contributionUsd) (some price) t = executeDcaContribution () ticker contributionUsd price t := by
  unfold dca executeDcaContribution
  congr 1
  funext _
  congr 1
  funext br
  cases br with
  | some blocks => rfl
  | none =>
    show Prog.bind _ _ = Prog.bind _ _
    congr 1
    funext row
    cases row with
    | none => rfl
    | some pos =>
      by_cases hp : price ≤ 0 ∨ contributionUsd ≤ 0
      · simp [hp]
      · simp only [Option.any_some, decide_eq_true_eq, if_neg hp]
        show Prog.bind _ _ = Prog.bind _ _
        congr 1
        funext cash
        rw [filter_some]
        by_cases h : cash + 1 / 1000000 < contributionUsd
        · simp only [if_pos h]
          rfl
        · simp only [if_neg h]
          rfl

theorem longTermSell_some (ticker : Ticker) (trimFraction exitPrice : ℚ) (t : Timestamp) (action : AlertAction) :
    longTermSell ticker (some trimFraction) (some exitPrice) t action =
      executeLongTermSell () ticker trimFraction exitPrice t action := rfl

/-! ## The other methods -/

/-- One statement and its commit. -/
def single (g : PaperStore → Option PaperStore) : StoreProg Unit := do
  WalFile.attempt .ignore () g
  WalFile.doCommit .commit ()

def recordIgnored (ticker : Ticker) (reason : IgnoreReason) (action : AlertAction) (price : Amount) (t : Timestamp)
    (horizon : Horizon) : StoreProg Unit :=
  single fun s => price.map (s.recordIgnored ticker reason action · t horizon)

def updateLatestPrice (ticker : Ticker) (price : Amount) : StoreProg Unit :=
  single fun s => price.map (s.updateLatestPrice ticker)

def updateTradeAllocation (amount : Amount) : StoreProg Unit := single fun s => amount.map s.updateTradeAllocation

def updateDcaContributionAmount (amount : Amount) : StoreProg Unit :=
  single fun s => amount.map s.updateDcaContributionAmount

def setLastDcaAt (t : Timestamp) : StoreProg Unit := single fun s => some (s.setLastDcaAt t)

/-- `reset_portfolio`. -/
def resetPortfolio (initialBalance tradeAllocationUsd : Amount) : StoreProg Unit := do
  WalFile.write .ignore () fun s => { s with positions := Table.empty }
  WalFile.write .ignore () fun s => { s with tradeHistory := [] }
  single fun s => do
    let balance ← initialBalance
    let allocation ← tradeAllocationUsd
    pure
      { s with
        portfolio := { initialBalance := balance, currentCash := balance }, tradeAllocationUsd := allocation }

/-- `reset_long_term_portfolio`. -/
def resetLongTermPortfolio (initialBalance dcaContributionUsd : Amount) : StoreProg Unit := do
  WalFile.write .ignore () fun s => { s with longTermPositions := Table.empty }
  WalFile.write .ignore () fun s => { s with longTermTradeHistory := [] }
  single fun s => do
    let balance ← initialBalance
    let contribution ← dcaContributionUsd
    pure
      { s with
        longTermPortfolio := { initialBalance := balance, currentCash := balance }
        dcaContributionUsd := contribution, lastDcaAt := none }

def attemptBlockClearance (now : Instant) (q : ClearanceRequest) (allow : Bool) : StoreProg Unit :=
  single fun s => s.attemptBlockClearance now q allow

end StoreProg

/-! ## Calls -/

/-- A call of one of the five trades. -/
inductive TradeCall
  | executeBuy (ticker : Ticker) (shares price cost : Amount) (t : Timestamp) (stop target : Option ℚ)
  | executeSell (ticker : Ticker) (exitPrice : Amount) (t : Timestamp) (action : AlertAction)
  | executeLongTermBuy (ticker : Ticker) (shares price cost : Amount) (t : Timestamp)
  | executeDcaContribution (ticker : Ticker) (contributionUsd price : Amount) (t : Timestamp)
  | executeLongTermSell (ticker : Ticker) (trimFraction exitPrice : Amount) (t : Timestamp) (action : AlertAction)

/-- What the call returns is no part of the file. -/
def TradeCall.prog : TradeCall → StoreProg Unit
  | executeBuy ticker shares price cost t stop target =>
    (StoreProg.buy ticker shares price cost t stop target).bind fun _ => .ret ()
  | executeSell ticker exitPrice t action => (StoreProg.sell ticker exitPrice t action).bind fun _ => .ret ()
  | executeLongTermBuy ticker shares price cost t =>
    (StoreProg.longTermBuy ticker shares price cost t).bind fun _ => .ret ()
  | executeDcaContribution ticker contributionUsd price t =>
    (StoreProg.dca ticker contributionUsd price t).bind fun _ => .ret ()
  | executeLongTermSell ticker trimFraction exitPrice t action =>
    (StoreProg.longTermSell ticker trimFraction exitPrice t action).bind fun _ => .ret ()

/-- A call of a public method that commits. `lock` commits through its caller, `clear_block`. -/
inductive PublicMethod
  | trade (c : TradeCall)
  | recordIgnored (ticker : Ticker) (reason : IgnoreReason) (action : AlertAction) (price : Amount) (t : Timestamp)
      (horizon : Horizon)
  | updateLatestPrice (ticker : Ticker) (price : Amount)
  | updateTradeAllocation (amount : Amount)
  | updateDcaContributionAmount (amount : Amount)
  | setLastDcaAt (t : Timestamp)
  | resetPortfolio (initialBalance tradeAllocationUsd : Amount)
  | resetLongTermPortfolio (initialBalance dcaContributionUsd : Amount)
  | recordAccountBlock (now : Instant) (accountId : String) (reasonType : BlockReason) (reference : String)
  | attemptBlockClearance (now : Instant) (q : ClearanceRequest) (allow : Bool)
  | lock (lane : Lane) (reconciled : Bool) (now : Instant) (q : ClearanceRequest)

def PublicMethod.prog : PublicMethod → StoreProg Unit
  | trade c => c.prog
  | recordIgnored ticker reason action price t horizon => StoreProg.recordIgnored ticker reason action price t horizon
  | updateLatestPrice ticker price => StoreProg.updateLatestPrice ticker price
  | updateTradeAllocation amount => StoreProg.updateTradeAllocation amount
  | updateDcaContributionAmount amount => StoreProg.updateDcaContributionAmount amount
  | setLastDcaAt t => StoreProg.setLastDcaAt t
  | resetPortfolio initialBalance tradeAllocationUsd => StoreProg.resetPortfolio initialBalance tradeAllocationUsd
  | resetLongTermPortfolio initialBalance dcaContributionUsd =>
    StoreProg.resetLongTermPortfolio initialBalance dcaContributionUsd
  | recordAccountBlock now accountId reasonType reference =>
    Paper.recordAccountBlock () now accountId reasonType reference
  | attemptBlockClearance now q allow => StoreProg.attemptBlockClearance now q allow
  | lock lane reconciled now q => clearBlock () lane reconciled now q

end TalonX.Paper
