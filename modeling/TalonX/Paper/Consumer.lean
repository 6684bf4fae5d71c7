import TalonX.Transact.Interleave
import TalonX.Paper.Store

/-!
# The two paper engines

The handlers of `PaperTradingEngine` and `LongTermPaperEngine`, which share one store. A handler runs without a break up
to the publication of what it executed, so it is one call; the end-of-day sweep and the contribution cycle publish after
every position, and other handlers may run in between.

- `handleAlert`, `handleMarketTick`, `closePosition`: the intraday engine;
- `handleLongTermAlert`, `dcaPosition`: the long-term engine;
- `PaperJob`, `PaperJob.prog`: everything that runs on the store.
-/

set_option autoImplicit false

namespace TalonX.Paper

open Transact Ops V2

/-- The calls of the engines, with what they are called with. -/
inductive PaperCall
  | alert (enabled : List Ticker) (a : ActionableAlert)
  | tick (e : MarketTickEvent)
  | read
  | close (ticker : Ticker) (fillPrice : ℚ)
  | longTermAlert (enabled : List Ticker) (a : LongTermActionableAlert)
  | longTermTick (e : MarketTickEvent)
  | dca (ticker : Ticker)
  | setting
  | accountBlock

/-! ## The intraday engine -/

/-- `_close_position`: raises as `execute_sell` does. -/
def closePosition (ticker : Ticker) (fillPrice : ℚ) (t : Timestamp) (action : AlertAction) (s : PaperStore) :
    Option PaperStore :=
  match s.executeSell ticker fillPrice t action with
  | none => none
  | some (none, s') => some (s'.recordIgnored ticker .noActivePosition action fillPrice t .intraday)
  | some (some _, s') => some s'

/-- `_execute_buy`. -/
def executeAlertBuy (cfg : PaperConfig) (a : ActionableAlert) (price : ℚ) (s : PaperStore) : Option PaperStore :=
  let fillPrice := applySpread price cfg.simulatedSpreadBps .buy
  let ignore := fun r => s.recordIgnored a.ticker r a.action fillPrice a.correlatedAt .intraday
  if !fillGeometryIsValid fillPrice a.triggeringSignal.stopPrice a.triggeringSignal.targetPrice then
    some (ignore .fillGeometryInvalid)
  else
    match calculateBuy s.portfolio.currentCash s.tradeAllocationUsd fillPrice with
    | none => some (ignore .insufficientCash)
    | some (shares, cost) =>
      (s.executeBuy a.ticker shares fillPrice cost a.correlatedAt a.triggeringSignal.stopPrice
        a.triggeringSignal.targetPrice).map (·.2)

/-- `_handle_alert`; `enabled` are the symbols of the watchlist with paper trading on. -/
def handleAlert (cfg : PaperConfig) (enabled : List Ticker) (a : ActionableAlert) (s : PaperStore) :
    Option PaperStore :=
  let ignore := fun r => some (s.recordIgnored a.ticker r a.action a.triggeringSignal.price a.correlatedAt .intraday)
  if a.ticker.toUpper ∉ enabled then some s
  else if a.action = .confirmedBullish ∧ a.severity.rank < cfg.minEntrySeverity.rank then ignore .belowMinSeverity
  else
    match decideTrade a (s.getPosition a.ticker) with
    | none => ignore .degradedNotTradable
    | some (.ignored _ r) => ignore r
    | some (.buy price) => executeAlertBuy cfg a price s
    | some (.sell price) =>
      closePosition a.ticker (applySpread price cfg.simulatedSpreadBps .sell) a.correlatedAt a.action s

/-- What a bar's close triggers on an open position. -/
def tickTrigger (cfg : PaperConfig) (close : ℚ) (p : Position) : Option ExitTrigger :=
  checkStopTake p.entryPrice close cfg.stopLossPct cfg.takeProfitPct p.stopPrice p.targetPrice

def ExitTrigger.action : ExitTrigger → AlertAction
  | .stopLoss => .stopLossExit
  | .takeProfit => .takeProfitExit

/-- `_handle_market_tick`: the price is stored, whatever becomes of the exit. -/
def handleMarketTick (cfg : PaperConfig) (e : MarketTickEvent) (now : Timestamp) (s : PaperStore) : PaperStore :=
  match e.eventType, e.close with
  | .bar, some close =>
    let s' := s.updateLatestPrice e.symbol close
    match s'.getPosition e.symbol with
    | none => s'
    | some p =>
      match tickTrigger cfg close p with
      | none => s'
      | some trigger =>
        (closePosition e.symbol (applySpread close cfg.simulatedSpreadBps .sell) now trigger.action s').getD s'
  | _, _ => s

/-- One position of the end-of-day sweep. -/
def flattenPosition (cfg : PaperConfig) (prices : Ticker → Option ℚ) (now : Timestamp) (p : Position) :
    Prog PaperCall PaperStore Unit :=
  match prices p.ticker with
  | none => pure ()
  | some price =>
    if price ≤ 0 then pure ()
    else
      let fillPrice := applySpread price cfg.simulatedSpreadBps .sell
      Prog.txn (.close p.ticker fillPrice) fun s =>
        (closePosition p.ticker fillPrice now .eodFlatLiquidation s).map ((), ·)

/-- `_run_eod_flatten_once`. -/
def runEodFlattenOnce (cfg : PaperConfig) (now : Timestamp) : Prog PaperCall PaperStore Unit := do
  let positions ← Prog.read .read PaperStore.getOpenPositions
  let prices ← Prog.read .read PaperStore.latestPrices
  Prog.forEach positions (flattenPosition cfg prices now)

/-! ## The long-term engine -/

/-- `_execute_buy` of the long-term engine. -/
def executeLongTermAlertBuy (cfg : PaperConfig) (a : LongTermActionableAlert) (price : ℚ) (s : PaperStore) :
    Option PaperStore :=
  let fillPrice := applySpread price cfg.simulatedSpreadBps .buy
  match calculateBuy s.longTermPortfolio.currentCash cfg.longTermInitialPositionUsd fillPrice with
  | none => some (s.recordIgnored a.ticker .insufficientCash a.action fillPrice a.correlatedAt .longTerm)
  | some (shares, cost) => (s.executeLongTermBuy a.ticker shares fillPrice cost a.correlatedAt).map (·.2)

/-- `_execute_sell` of the long-term engine. -/
def closeLongTermPosition (a : LongTermActionableAlert) (trimFraction fillPrice : ℚ) (s : PaperStore) :
    Option PaperStore :=
  match s.executeLongTermSell a.ticker trimFraction fillPrice a.correlatedAt a.action with
  | none => none
  | some (none, s') => some (s'.recordIgnored a.ticker .noActivePosition a.action fillPrice a.correlatedAt .longTerm)
  | some (some _, s') => some s'

/-- `_handle_alert` of the long-term engine. -/
def handleLongTermAlert (cfg : PaperConfig) (enabled : List Ticker) (a : LongTermActionableAlert) (s : PaperStore) :
    Option PaperStore :=
  if a.ticker.toUpper ∉ enabled then some s
  else
    match decideLongTermTrade a (s.getLongTermPosition a.ticker) cfg.rebalanceTrimPct with
    | none => some s
    | some (.ignored price r) => some (s.recordIgnored a.ticker r a.action price a.correlatedAt .longTerm)
    | some (.buy price) => executeLongTermAlertBuy cfg a price s
    | some (.sellPartial price trimFraction) =>
      closeLongTermPosition a trimFraction (applySpread price cfg.simulatedSpreadBps .sell) s
    | some (.sellFull price) => closeLongTermPosition a 1 (applySpread price cfg.simulatedSpreadBps .sell) s

/-- `_handle_market_tick` of the long-term engine: prices only. -/
def handleLongTermMarketTick (e : MarketTickEvent) (s : PaperStore) : PaperStore :=
  match e.eventType, e.close with
  | .bar, some close => s.updateLatestPrice e.symbol close
  | _, _ => s

/-- One position of a contribution cycle; `cash` is the pool's cash as the cycle read it last. -/
def dcaPosition (prices : Ticker → Option ℚ) (contributionUsd : ℚ) (now : Timestamp) (cash : ℚ)
    (p : LongTermPosition) : Prog PaperCall PaperStore ℚ :=
  match prices p.ticker with
  | none => pure cash
  | some price =>
    if price ≤ 0 then pure cash
    else if cash < contributionUsd then pure cash
    else
      Prog.txn (.dca p.ticker) fun s =>
        match s.executeDcaContribution p.ticker contributionUsd price now with
        | (none, s') => some (cash, s')
        | (some _, s') => some (s'.longTermPortfolio.currentCash, s')

/-- `_run_dca_cycle_once`. -/
def runDcaCycleOnce (now : Timestamp) : Prog PaperCall PaperStore Unit := do
  Prog.write .setting (·.setLastDcaAt now)
  let positions ← Prog.read .read PaperStore.getOpenLongTermPositions
  let prices ← Prog.read .read PaperStore.latestPrices
  let summary ← Prog.read .read fun s => (s.dcaContributionUsd, s.longTermPortfolio.currentCash)
  let _ ← Prog.foldEach positions summary.2 (dcaPosition prices summary.1 now)
  pure ()

/-! ## What runs on the store -/

inductive PaperJob
  | alert (enabled : List Ticker) (a : ActionableAlert)
  | tick (e : MarketTickEvent) (now : Timestamp)
  | eodFlatten (now : Timestamp)
  | longTermAlert (enabled : List Ticker) (a : LongTermActionableAlert)
  | longTermTick (e : MarketTickEvent)
  | dcaCycle (now : Timestamp)
  | updateTradeAllocation (amount : ℚ)
  | updateDcaContribution (amount : ℚ)
  | recordAccountBlock (now : Instant) (accountId : String) (reasonType : BlockReason) (reference : String)
  | attemptBlockClearance (now : Instant) (q : ClearanceRequest) (allow : Bool)

def PaperJob.prog (cfg : PaperConfig) : PaperJob → Prog PaperCall PaperStore Unit
  | .alert enabled a => Prog.txn (.alert enabled a) fun s => (handleAlert cfg enabled a s).map ((), ·)
  | .tick e now => Prog.write (.tick e) (handleMarketTick cfg e now)
  | .eodFlatten now => runEodFlattenOnce cfg now
  | .longTermAlert enabled a =>
    Prog.txn (.longTermAlert enabled a) fun s => (handleLongTermAlert cfg enabled a s).map ((), ·)
  | .longTermTick e => Prog.write (.longTermTick e) (handleLongTermMarketTick e)
  | .dcaCycle now => runDcaCycleOnce now
  | .updateTradeAllocation amount => Prog.write .setting (·.updateTradeAllocation amount)
  | .updateDcaContribution amount => Prog.write .setting (·.updateDcaContributionAmount amount)
  | .recordAccountBlock now account r ref => Prog.write .accountBlock (·.recordAccountBlock now account r ref)
  | .attemptBlockClearance now q allow =>
    Prog.txn .accountBlock fun s => (s.attemptBlockClearance now q allow).map ((), ·)

end TalonX.Paper
