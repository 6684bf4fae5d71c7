import TalonX.Backtest.Execution
import TalonX.Backtest.MarketState
import TalonX.Quant.Gates
import TalonX.Transact.Grouping
import TalonX.Transact.Sorting

/-!
# The replay engine

- `computeHtfTrend`, `computeDailyPivots`: what the coarse buffer says; what `pandas_ta` computes is the parameter
  `Indicators`;
- `processSymbolBar`: the pending exit, the pending entry or the open position, then the signals of the bar;
- `flushThrottle`: the candidates of one minute, the best first;
- `maybeEodFlatten`, `finalizeAtDataEnd`: what is open at the end of a day, and of the data;
- `run`: the whole replay.
-/

set_option autoImplicit false

namespace TalonX.Backtest

open Quant Transact

/-! ## Indicators -/

/-- The parts of `indicators.py` that `pandas_ta` computes. -/
structure Indicators where
  computeIndicators : Option (List Bar) → StrategyConfig → Option IndicatorSnapshot
  regimeLegAtr : Option (List Bar) → ℕ → Option ℚ × Option ℚ × Bool

def computeVolatilityRegime (indicators : Indicators) (df15m df60m : Option (List Bar)) (atrPeriod : ℕ)
    (asOf : Timestamp) : VolatilityRegimeSnapshot :=
  let (atr15m, atrPct15m, ready15m) := indicators.regimeLegAtr df15m atrPeriod
  let (atr60m, atrPct60m, ready60m) := indicators.regimeLegAtr df60m atrPeriod
  ⟨atr15m, atrPct15m, ready15m, atr60m, atrPct60m, ready60m, asOf⟩

/-- The mean of the last `period` closes. -/
def computeHtfTrend (dfHtf : Option (List Bar)) (period : ℕ) : Option ℚ :=
  match dfHtf with
  | none => none
  | some bars =>
    if bars.length < period ∨ period = 0 then none else some (((bars.rtake period).map (·.close)).sum / period)

/-- The levels of the last regular session before the date of `currentTimestamp`. -/
def computeDailyPivots (eastern : EasternClock) (dfHtf : Option (List Bar)) (currentTimestamp : Timestamp) :
    Option DailyPivots := do
  let regular := (← dfHtf).filter (·.session = .regular)
  let priorDates := (regular.map fun b => eastern.date b.timestamp).filter (· < eastern.date currentTimestamp)
  let day ← priorDates.max?
  let lastSession := regular.filter fun b => eastern.date b.timestamp = day
  let high ← (lastSession.filterMap (·.high)).max?
  let low ← (lastSession.filterMap (·.low)).min?
  let close ← lastSession.getLast?.map (·.close)
  let pivot := (high + low + close) / 3
  some ⟨pivot, 2 * pivot - low, 2 * pivot - high⟩

/-- `model_copy` with the stop and the target of a geometry, and how they came about. -/
def withGeometry (signal : QuantSignal) (g : TradeGeometry) : QuantSignal :=
  { signal with
    stopPrice := some g.stopPrice
    targetPrice := some g.targetPrice
    geometryPath := some g.geometryPath
    fallbackReason := g.fallbackReason
    structuralLevel := g.structuralLevel
    structuralLevelType := g.structuralLevelType }

/-! ## State -/

structure BacktestConfig where
  quantConfig : QuantConfig
  strategy : StrategyConfig
  execution : ExecutionConfig
  eodFlattenEnabled : Bool
  eodFlattenHourEt : ℕ
  eodFlattenMinuteEt : ℕ
  allowOverlappingTrades : Bool

/-- The bars of any symbols, one a row. -/
abbrev DataFrame := List (Symbol × HistoricalRow)

structure PendingEntry where
  signal : QuantSignal
  opportunityScore : ℚ

structure PendingExit where
  signal : QuantSignal

structure RejectionRecord where
  ticker : Symbol
  reason : Reason
  count : ℕ
  timestamp : Timestamp
  deriving DecidableEq

/-- A row of `signal_log`. -/
structure SignalLogRow where
  timestamp : Timestamp
  ticker : Symbol
  signalType : SignalType
  direction : SignalDirection
  price : ℚ
  rsi : Option ℚ
  confluenceScore : ℕ
  riskRewardRatio : Option ℚ
  deriving DecidableEq

/-- A signal that `signals_published` counts, and when. -/
structure Publication where
  timestamp : Timestamp
  signal : QuantSignal
  deriving DecidableEq

structure BacktestEngine where
  market : MarketState
  simulator : TradeSimulator
  cooldownUntil : Symbol → Option Timestamp
  lossLockoutUntil : Symbol → Option Timestamp
  pendingEntry : Symbol → Option PendingEntry
  pendingExit : Symbol → Option PendingExit
  flattenedDates : List ℕ
  trades : List Trade
  rejections : List RejectionRecord
  signalLog : List SignalLogRow
  /-- The source keeps their number only. -/
  published : List Publication
  barsProcessed : ℕ
  warmupBarsProcessed : ℕ
  geometryPathCounts : GeometryPath → ℕ
  fallbackReasonCounts : FallbackReason → ℕ

namespace BacktestEngine

def init (config : BacktestConfig) : BacktestEngine where
  market := .init config.quantConfig
  simulator := ⟨config.execution, Table.empty⟩
  cooldownUntil _ := none
  lossLockoutUntil _ := none
  pendingEntry _ := none
  pendingExit _ := none
  flattenedDates := []
  trades := []
  rejections := []
  signalLog := []
  published := []
  barsProcessed := 0
  warmupBarsProcessed := 0
  geometryPathCounts _ := 0
  fallbackReasonCounts _ := 0

def signalsGenerated (e : BacktestEngine) : ℕ := e.signalLog.length

def signalsPublished (e : BacktestEngine) : ℕ := e.published.length

def reject (e : BacktestEngine) (ticker : Symbol) (reason : Reason) (count : ℕ) (timestamp : Timestamp) :
    BacktestEngine := { e with rejections := e.rejections ++ [⟨ticker.toUpper, reason, count, timestamp⟩] }

/-! ## Cooldown and loss lockout -/

def isOnCooldown (e : BacktestEngine) (symbol : Symbol) (now : Timestamp) : Bool :=
  (e.cooldownUntil symbol).any (now < ·)

def isLossLockedOut (e : BacktestEngine) (symbol : Symbol) (now : Timestamp) : Bool :=
  (e.lossLockoutUntil symbol).any (now < ·)

variable (config : BacktestConfig)

def armCooldown (e : BacktestEngine) (symbol : Symbol) (now : Timestamp) : BacktestEngine :=
  { e with cooldownUntil := Function.update e.cooldownUntil symbol (some (now + config.strategy.cooldown)) }

def armLossLockout (e : BacktestEngine) (symbol : Symbol) (now : Timestamp) : BacktestEngine :=
  { e with lossLockoutUntil := Function.update e.lossLockoutUntil symbol (some (now + config.strategy.lossLockout)) }

def maybeArmLossLockout (e : BacktestEngine) (symbol : Symbol) (trade : Trade) (now : Timestamp) : BacktestEngine :=
  if trade.netPnl < 0 then e.armLossLockout config symbol now else e

/-- What follows a call of the simulator: the trade, where there is one, is kept, and a loss arms the lockout. -/
def settle (e : BacktestEngine) (symbol : Symbol) (now : Timestamp) (x : Option Trade × TradeSimulator) :
    BacktestEngine :=
  match x.1 with
  | none => { e with simulator := x.2 }
  | some trade =>
    ({ e with simulator := x.2, trades := e.trades ++ [trade] } : BacktestEngine).maybeArmLossLockout config symbol
      trade now

/-! ## The position of a bar -/

variable (eastern : EasternClock)

/-- A signal whose stop and target no longer enclose the fill is measured anew from the fill. -/
def finalizeFillGeometry (e : BacktestEngine) (signal : QuantSignal) (fillPrice : ℚ) (now : Timestamp) :
    Option QuantSignal × BacktestEngine :=
  match signal.stopPrice, signal.targetPrice with
  | some stop, some target =>
    if GeometryValid stop fillPrice target signal.direction then (some signal, e)
    else
      let geometry := calculateTradeGeometry fillPrice signal.atr signal.direction signal.pivotResistance
        signal.pivotSupport config.strategy
      match geometry with
      | none => (none, e.reject signal.ticker.toUpper .geometryInvalidatedAtFill 1 now)
      | some g =>
        if g.riskRewardRatio.any (config.strategy.minRiskRewardRatio ≤ ·) then
          (some (withGeometry signal g), e)
        else (none, e.reject signal.ticker.toUpper .geometryInvalidatedAtFill 1 now)
  | _, _ => (some signal, e)

/-- The fallback accounting of a position that is opened. -/
def countGeometry (e : BacktestEngine) (signal : QuantSignal) : BacktestEngine :=
  match signal.direction, signal.geometryPath with
  | .bullish, some path =>
    { e with
      geometryPathCounts := Function.update e.geometryPathCounts path (e.geometryPathCounts path + 1)
      fallbackReasonCounts := match signal.fallbackReason with
        | some reason => Function.update e.fallbackReasonCounts reason (e.fallbackReasonCounts reason + 1)
        | none => e.fallbackReasonCounts }
  | _, _ => e

/-- `pending_exit = self._pending_exit.pop(symbol, None)` and what follows. -/
def takePendingExit (e : BacktestEngine) (symbol : Symbol) (row : HistoricalRow) : BacktestEngine :=
  match e.pendingExit symbol with
  | none => e
  | some pending =>
    let e := { e with pendingExit := Function.update e.pendingExit symbol none }
    if e.simulator.hasOpen symbol then
      e.settle config symbol row.timestamp
        (e.simulator.closeOnSignalExit symbol row.timestamp row.openPrice pending.signal)
    else e.reject symbol .noActivePosition 1 row.timestamp

/-- The fill of an entry at the open of the bar, and the rest of the bar for the new position. -/
def fillEntry (e : BacktestEngine) (symbol : Symbol) (pending : PendingEntry) (row : HistoricalRow) : BacktestEngine :=
  let (fillSignal, e) := e.finalizeFillGeometry config pending.signal row.openPrice row.timestamp
  match fillSignal with
  | none => e
  | some signal =>
    let e := e.countGeometry signal
    let e := { e with
      simulator := e.simulator.openPosition signal row.timestamp row.openPrice pending.opportunityScore }
    e.settle config symbol row.timestamp (e.simulator.checkExit symbol row.timestamp row.high row.low)

/-- `pending = self._pending_entry.pop(symbol, None)` and what follows. A bar that finds an entry pending does not look at
a position that is already open. -/
def takePendingEntry (e : BacktestEngine) (symbol : Symbol) (row : HistoricalRow) : BacktestEngine :=
  match e.pendingEntry symbol with
  | some pending =>
    let e := { e with pendingEntry := Function.update e.pendingEntry symbol none }
    if eastern.date row.timestamp ∈ e.flattenedDates then
      e.reject symbol .postEodFlattenNoNewEntry 1 row.timestamp
    else if config.allowOverlappingTrades || !e.simulator.hasOpen symbol then e.fillEntry config symbol pending row
    else e
  | none =>
    if e.simulator.hasOpen symbol then
      e.settle config symbol row.timestamp (e.simulator.checkExit symbol row.timestamp row.high row.low)
    else e

/-! ## The signals of a bar -/

variable (indicators : Indicators)

/-- The candidates of a bar past all gates. -/
def evaluateBar (e : BacktestEngine) (symbol : Symbol) (timestamp : Timestamp) : BacktestEngine × List QuantSignal :=
  match indicators.computeIndicators (e.market.buffer.getDataframe symbol) config.strategy with
  | none => (e, [])
  | some snapshot =>
    let dfHtf := e.market.bufferHtf.getDataframe symbol
    let regime := computeVolatilityRegime indicators dfHtf (e.market.buffer60m.getDataframe symbol)
      config.strategy.atrPeriod timestamp
    let (gateFails, reason, _) := evaluateActiveVolatilityGate (failsMinVolatility snapshot config.strategy)
      (evaluateRegime regime) config.strategy
    if gateFails then (e.reject symbol reason 1 timestamp, [])
    else
      let signals := evaluateSignals eastern symbol snapshot config.strategy
        (computeHtfTrend dfHtf config.strategy.htfSmaPeriod) (computeDailyPivots eastern dfHtf snapshot.barTimestamp)
      if signals = [] then (e, [])
      else
        let e := { e with signalLog := e.signalLog ++ signals.map fun s =>
          ⟨timestamp, symbol, s.signalType, s.direction, s.price, s.rsi, s.confluenceScore, s.riskRewardRatio⟩ }
        let (rejected, survivors) := chain (replayGates eastern config.strategy snapshot.barTimestamp
          (e.isLossLockedOut symbol timestamp) (e.isOnCooldown symbol timestamp)) signals
        (rejected.foldl (fun e r => e.reject symbol r.1 r.2 timestamp) e, survivors)

def feed (e : BacktestEngine) (symbol : Symbol) (row : HistoricalRow) : BacktestEngine :=
  { e with market := (e.market.feedMarketState eastern.time symbol row).2.2 }

def processSymbolBar (e : BacktestEngine) (symbol : Symbol) (row : HistoricalRow) (candidates : List QuantSignal) :
    BacktestEngine × List QuantSignal :=
  let symbol := symbol.toUpper
  let e := { e with barsProcessed := e.barsProcessed + 1 }
  let e := (e.takePendingExit config symbol row).takePendingEntry config eastern symbol row
  let e := e.feed eastern symbol row
  let (e, survivors) := e.evaluateBar config eastern indicators symbol row.timestamp
  (e, candidates ++ survivors)

def warmupSymbolBar (e : BacktestEngine) (symbol : Symbol) (row : HistoricalRow) : BacktestEngine :=
  { e.feed eastern symbol row with warmupBarsProcessed := e.warmupBarsProcessed + 1 }

/-! ## The throttle -/

/-- The geometry of a candidate from the latest close; none of a candidate is older than the minute. -/
def revalidate (e : BacktestEngine) (signal : QuantSignal) (now : Timestamp) : Option QuantSignal × BacktestEngine :=
  let symbol := signal.ticker.toUpper
  if config.strategy.maxCandidateAgeSeconds < 0 then (none, e.reject symbol .expiredInThrottleQueue 1 now)
  else
    match e.market.lastClose symbol with
    | none => (none, e.reject symbol .finalRevalidationDataUnavailable 1 now)
    | some currentPrice =>
      if signal.atr = none ∨ signal.pivotResistance = none ∨ signal.pivotSupport = none then
        (none, e.reject symbol .finalRevalidationDataUnavailable 1 now)
      else
        match calculateTradeGeometry currentPrice signal.atr signal.direction signal.pivotResistance
            signal.pivotSupport config.strategy with
        | none => (none, e.reject symbol .rrDegradedDuringThrottle 1 now)
        | some g =>
          if g.riskRewardRatio.any (config.strategy.minRiskRewardRatio ≤ ·) then
            (some { withGeometry signal g with
              price := currentPrice
              riskRewardRatio := g.riskRewardRatio
              signalAgeMs := some 0 }, e)
          else (none, e.reject symbol .rrDegradedDuringThrottle 1 now)

/-- A published signal: a long is scheduled, a long that is open is scheduled to end, or there is nothing to end. -/
def publish (e : BacktestEngine) (symbol : Symbol) (signal : QuantSignal) (score : ℚ) (now : Timestamp) :
    BacktestEngine :=
  let e := ({ e with published := e.published ++ [⟨now, signal⟩] } : BacktestEngine).armCooldown config symbol now
  match signal.direction with
  | .bullish => { e with pendingEntry := Function.update e.pendingEntry symbol (some ⟨signal, score⟩) }
  | .bearish =>
    if e.simulator.hasOpen symbol then { e with pendingExit := Function.update e.pendingExit symbol (some ⟨signal⟩) }
    else e.reject symbol .noActivePosition 1 now

/-- One released candidate. -/
def release (e : BacktestEngine) (now : Timestamp) (candidate : QuantSignal × ℚ) : BacktestEngine :=
  let symbol := candidate.1.ticker.toUpper
  if e.isOnCooldown symbol now then e.reject symbol .cooldown 1 now
  else
    match e.revalidate config candidate.1 now with
    | (none, e) => e
    | (some signal, e) => e.publish config symbol signal candidate.2 now

/-- `scored[:n]` takes all but the last `-n` where `n` is negative. -/
def sliceEnd (n : ℤ) (length : ℕ) : ℕ := if 0 ≤ n then n.toNat else length - (-n).toNat

def flushThrottle (e : BacktestEngine) (candidates : List QuantSignal) (now : Timestamp) : BacktestEngine :=
  let scored := (candidates.map fun s => (s, opportunityScore s config.strategy)).insertionSort fun a b => b.2 ≤ a.2
  let n := sliceEnd config.strategy.throttleMaxSignals scored.length
  let e := (scored.take n).foldl (fun e c => e.release config now c) e
  (groups (fun c : QuantSignal × ℚ => c.1.ticker.toUpper) (scored.drop n)).foldl
    (fun e g => e.reject g.1 .throttle g.2.length now) e

/-! ## The end of a day and of the data -/

/-- The local time of the flatten has come. -/
def pastFlattenTime (t : Timestamp) : Bool :=
  config.eodFlattenHourEt * hour + config.eodFlattenMinuteEt * minute ≤ eastern.time t

/-- A position at the last close of its symbol, where there is one. -/
def closeAtLast (e : BacktestEngine) (now : Timestamp) (symbol : Symbol) : BacktestEngine :=
  match e.market.lastClose symbol with
  | none => e
  | some price => e.settle config symbol now (e.simulator.forceClose symbol now price .endOfSession)

def maybeEodFlatten (e : BacktestEngine) (now : Timestamp) : BacktestEngine :=
  if !pastFlattenTime config eastern now ∨ eastern.date now ∈ e.flattenedDates then e
  else
    let e := { e with flattenedDates := eastern.date now :: e.flattenedDates }
    e.simulator.openSymbols.foldl (fun e symbol => e.closeAtLast config now symbol) e

/-- A loss at the end of the data arms nothing. -/
def closeAtEnd (e : BacktestEngine) (symbol : Symbol) : BacktestEngine :=
  match e.market.lastClose symbol, e.market.lastTimestamp symbol with
  | some price, some timestamp =>
    let (trade, simulator) := e.simulator.forceClose symbol timestamp price .dataEnd
    { e with simulator := simulator, trades := e.trades ++ trade.toList }
  | _, _ => e

def finalizeAtDataEnd (e : BacktestEngine) : BacktestEngine := e.simulator.openSymbols.foldl closeAtEnd e

/-! ## Runs -/

/-- `sort_values(["timestamp", "symbol"], kind="mergesort")`. -/
def sortValues (df : DataFrame) : DataFrame :=
  df.insertionSort (lexBy (fun x => x.2.timestamp) fun a b => a.1 ≤ b.1)

/-- The bars of one minute: the symbols one by one, then the throttle, then the end of the day. -/
def processGroup (e : BacktestEngine) (group : Timestamp × DataFrame) : BacktestEngine :=
  let (e, candidates) := group.2.foldl
    (fun x bar => x.1.processSymbolBar config eastern indicators bar.1 bar.2 x.2) (e, [])
  let e := if candidates = [] then e else e.flushThrottle config candidates group.1
  if config.eodFlattenEnabled then e.maybeEodFlatten config eastern group.1 else e

/-- The minutes of a replay. -/
def minutes (df : DataFrame) : List (Timestamp × DataFrame) :=
  sortedGroups (fun x => x.2.timestamp) (sortValues df)

/-- What a replay of `df` leaves before the end of the data is dealt with, and what comes before it: the warm-up. -/
def replay (warmup df : DataFrame) : BacktestEngine :=
  let e := (sortValues warmup).foldl (fun e bar => e.warmupSymbolBar eastern bar.1 bar.2) (init config)
  (minutes df).foldl (fun e g => e.processGroup config eastern indicators g) e

end BacktestEngine

structure BacktestResult where
  trades : List Trade
  rejections : List RejectionRecord
  signalsGenerated : ℕ
  signalsPublished : ℕ
  start : Option Timestamp
  stop : Option Timestamp
  symbols : List Symbol
  barsProcessed : ℕ
  warmupBarsProcessed : ℕ

/-- `warmup_df` does not end before `df` begins. -/
structure WarmupError where
  maxWarmupTimestamp : Timestamp
  minEvalTimestamp : Timestamp

open BacktestEngine in
/-- `run`: the result and the engine it leaves behind. -/
def run (config : BacktestConfig) (eastern : EasternClock) (indicators : Indicators) (warmup df : DataFrame) :
    Except WarmupError (BacktestResult × BacktestEngine) :=
  match (warmup.map (·.2.timestamp)).max?, (df.map (·.2.timestamp)).min? with
  | _, none => .ok (⟨[], [], 0, 0, none, none, [], 0, 0⟩, .init config)
  | maxWarmup, some minEval =>
    match maxWarmup.filter (minEval ≤ ·) with
    | some late => .error ⟨late, minEval⟩
    | none =>
      let e := (replay config eastern indicators warmup df).finalizeAtDataEnd
      let ordered := sortValues df
      .ok (⟨e.trades, e.rejections, e.signalsGenerated, e.signalsPublished, ordered.head?.map (·.2.timestamp),
        ordered.getLast?.map (·.2.timestamp), (ordered.map (·.1)).dedup.insertionSort (· ≤ ·), e.barsProcessed,
        e.warmupBarsProcessed⟩, e)

end TalonX.Backtest
