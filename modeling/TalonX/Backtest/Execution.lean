import Mathlib.Algebra.Order.AbsoluteValue.Basic
import TalonX.Quant.Strategy
import TalonX.Transact.Largest
import TalonX.Transact.Text

/-!
# Simulated execution

- `checkBarForExit`: what a bar does to a stop and a target, with both touched on the same bar;
- `OpenPosition`: an entry and the extremes since; `Trade`: an entry with its exit;
- `TradeSimulator`: the open positions, one for each symbol, in the order of entry.
-/

set_option autoImplicit false

namespace TalonX.Backtest

open Quant Transact

inductive SameBarResolution
  | stopFirst
  | targetFirst
  deriving DecidableEq

structure ExecutionConfig where
  entrySlippageBps : ℚ
  exitSlippageBps : ℚ
  spreadBps : ℚ
  sameBarResolution : SameBarResolution

inductive Side
  | entry
  | exit
  deriving DecidableEq

/-- Moves a price against the trader. -/
def applyCost (price : ℚ) (direction : SignalDirection) (side : Side) (bps : ℚ) : ℚ :=
  if bps ≤ 0 then price
  else
    let factor := bps / 10000
    if (side = .entry) = (direction = .bullish) then price * (1 + factor) else price * (1 - factor)

def applyEntryCost (rawPrice : ℚ) (direction : SignalDirection) (config : ExecutionConfig) : ℚ :=
  applyCost rawPrice direction .entry (config.entrySlippageBps + config.spreadBps / 2)

def applyExitCost (rawPrice : ℚ) (direction : SignalDirection) (config : ExecutionConfig) : ℚ :=
  applyCost rawPrice direction .exit (config.exitSlippageBps + config.spreadBps / 2)

inductive ExitReason
  | stop
  | target
  | signalExit
  | endOfSession
  | dataEnd
  deriving DecidableEq

/-- `.stop`, `.target`, or neither. -/
def checkBarForExit (direction : SignalDirection) (stopPrice targetPrice barHigh barLow : ℚ)
    (sameBarResolution : SameBarResolution) : Option ExitReason :=
  let hitTarget : Bool := match direction with
    | .bullish => targetPrice ≤ barHigh
    | .bearish => barLow ≤ targetPrice
  let hitStop : Bool := match direction with
    | .bullish => barLow ≤ stopPrice
    | .bearish => stopPrice ≤ barHigh
  if hitTarget && hitStop then some (if sameBarResolution = .stopFirst then .stop else .target)
  else if hitStop then some .stop
  else if hitTarget then some .target
  else none

structure OpenPosition where
  symbol : Symbol
  direction : SignalDirection
  signal : QuantSignal
  entryTimestamp : Timestamp
  entryPriceRaw : ℚ
  entryPriceNet : ℚ
  stopPrice : Option ℚ
  targetPrice : Option ℚ
  risk : Option ℚ
  mfePrice : ℚ
  maePrice : ℚ
  opportunityScore : ℚ
  deriving DecidableEq

def OpenPosition.updateExcursion (p : OpenPosition) (barHigh barLow : ℚ) : OpenPosition :=
  match p.direction with
  | .bullish => { p with mfePrice := max p.mfePrice barHigh, maePrice := min p.maePrice barLow }
  | .bearish => { p with mfePrice := min p.mfePrice barLow, maePrice := max p.maePrice barHigh }

namespace OpenPosition

variable (p : OpenPosition) (hi lo : ℚ)

/-- Only the extremes move. -/
theorem updateExcursion_eq :
    p.updateExcursion hi lo =
      { p with
        mfePrice := if p.direction = .bullish then max p.mfePrice hi else min p.mfePrice lo
        maePrice := if p.direction = .bullish then min p.maePrice lo else max p.maePrice hi } := by
  unfold updateExcursion
  cases p.direction <;> simp

@[simp] theorem symbol_updateExcursion : (p.updateExcursion hi lo).symbol = p.symbol := by rw [updateExcursion_eq]

@[simp] theorem direction_updateExcursion : (p.updateExcursion hi lo).direction = p.direction := by
  rw [updateExcursion_eq]

@[simp] theorem signal_updateExcursion : (p.updateExcursion hi lo).signal = p.signal := by rw [updateExcursion_eq]

@[simp] theorem entryTimestamp_updateExcursion : (p.updateExcursion hi lo).entryTimestamp = p.entryTimestamp := by
  rw [updateExcursion_eq]

@[simp] theorem entryPriceRaw_updateExcursion : (p.updateExcursion hi lo).entryPriceRaw = p.entryPriceRaw := by
  rw [updateExcursion_eq]

@[simp] theorem entryPriceNet_updateExcursion : (p.updateExcursion hi lo).entryPriceNet = p.entryPriceNet := by
  rw [updateExcursion_eq]

@[simp] theorem stopPrice_updateExcursion : (p.updateExcursion hi lo).stopPrice = p.stopPrice := by
  rw [updateExcursion_eq]

@[simp] theorem targetPrice_updateExcursion : (p.updateExcursion hi lo).targetPrice = p.targetPrice := by
  rw [updateExcursion_eq]

@[simp] theorem risk_updateExcursion : (p.updateExcursion hi lo).risk = p.risk := by rw [updateExcursion_eq]

end OpenPosition

structure Trade where
  symbol : Symbol
  direction : SignalDirection
  signalType : SignalType
  session : Session
  signalTimestamp : Timestamp
  entryTimestamp : Timestamp
  entryPrice : ℚ
  stopPrice : Option ℚ
  targetPrice : Option ℚ
  atr : Option ℚ
  screeningRr : Option ℚ
  executionRr : Option ℚ
  confluenceScore : ℕ
  opportunityScore : ℚ
  volumeSurgeRatio : Option ℚ
  trendAlignment : Option Bool
  exitTimestamp : Timestamp
  exitPrice : ℚ
  exitReason : ExitReason
  exitSignalType : Option SignalType
  exitSignalDirection : Option SignalDirection
  geometryPath : Option GeometryPath
  fallbackReason : Option FallbackReason
  structuralLevel : Option ℚ
  structuralLevelType : Option String
  grossR : Option ℚ
  netR : Option ℚ
  grossPnl : ℚ
  netPnl : ℚ
  holdingSeconds : ℚ
  mfePrice : ℚ
  mfePct : Option ℚ
  mfeR : Option ℚ
  maePrice : ℚ
  maePct : Option ℚ
  maeR : Option ℚ
  deriving DecidableEq

/-- `-`: the sign of a short. -/
def directionSign (direction : SignalDirection) : ℚ := if direction = .bullish then 1 else -1

/-- `_close`: the trade of a position that leaves at `exitPriceRaw`. -/
def OpenPosition.close (config : ExecutionConfig) (p : OpenPosition) (timestamp : Timestamp) (exitPriceRaw : ℚ)
    (reason : ExitReason) (exitSignal : Option QuantSignal) : Trade :=
  let sign := directionSign p.direction
  let exitPriceNet := applyExitCost exitPriceRaw p.direction config
  let grossPnl := (exitPriceRaw - p.entryPriceRaw) * sign
  let netPnl := (exitPriceNet - p.entryPriceNet) * sign
  -- `if position.risk:` also sorts out a risk of zero
  let risk := p.risk.filter (· ≠ 0)
  let mfeDist := (p.mfePrice - p.entryPriceRaw) * sign
  let maeDist := (p.maePrice - p.entryPriceRaw) * sign
  let pct (dist : ℚ) : Option ℚ := if p.entryPriceRaw = 0 then none else some (dist / p.entryPriceRaw * 100)
  { symbol := p.symbol
    direction := p.direction
    signalType := p.signal.signalType
    session := p.signal.session
    signalTimestamp := p.signal.barTimestamp
    entryTimestamp := p.entryTimestamp
    entryPrice := p.entryPriceRaw
    stopPrice := p.stopPrice
    targetPrice := p.targetPrice
    atr := p.signal.atr
    screeningRr := p.signal.riskRewardRatio
    executionRr := risk.bind fun risk => p.targetPrice.map fun target => |target - p.entryPriceRaw| / risk
    confluenceScore := p.signal.confluenceScore
    opportunityScore := p.opportunityScore
    volumeSurgeRatio := p.signal.volumeSurgeRatio
    trendAlignment := p.signal.trendAligned
    exitTimestamp := timestamp
    exitPrice := exitPriceRaw
    exitReason := reason
    exitSignalType := exitSignal.map (·.signalType)
    exitSignalDirection := exitSignal.map (·.direction)
    geometryPath := p.signal.geometryPath
    fallbackReason := p.signal.fallbackReason
    structuralLevel := p.signal.structuralLevel
    structuralLevelType := p.signal.structuralLevelType
    grossR := risk.map (grossPnl / ·)
    netR := risk.map (netPnl / ·)
    grossPnl := grossPnl
    netPnl := netPnl
    holdingSeconds := ((timestamp : ℚ) - p.entryTimestamp) / second
    mfePrice := p.mfePrice
    mfePct := pct mfeDist
    mfeR := risk.map (mfeDist / ·)
    maePrice := p.maePrice
    maePct := pct maeDist
    maeR := risk.map (maeDist / ·) }

structure TradeSimulator where
  config : ExecutionConfig
  opened : Table OpenPosition.symbol

namespace TradeSimulator

def hasOpen (s : TradeSimulator) (symbol : Symbol) : Bool := (s.opened.get symbol.toUpper).isSome

def getOpen (s : TradeSimulator) (symbol : Symbol) : Option OpenPosition := s.opened.get symbol.toUpper

def openSymbols (s : TradeSimulator) : List Symbol := s.opened.rows.map (·.symbol)

/-- The position of a fill; a stop at the entry leaves no risk to measure by. -/
def position (config : ExecutionConfig) (signal : QuantSignal) (timestamp : Timestamp) (entryPriceRaw : ℚ)
    (opportunityScore : ℚ) : OpenPosition where
  symbol := signal.ticker.toUpper
  direction := signal.direction
  signal := signal
  entryTimestamp := timestamp
  entryPriceRaw := entryPriceRaw
  entryPriceNet := applyEntryCost entryPriceRaw signal.direction config
  stopPrice := signal.stopPrice
  targetPrice := signal.targetPrice
  risk := (signal.stopPrice.map fun stop => |entryPriceRaw - stop|).filter (0 < ·)
  mfePrice := entryPriceRaw
  maePrice := entryPriceRaw
  opportunityScore := opportunityScore

/-- `self._open[symbol] = position`. -/
def put (s : TradeSimulator) (p : OpenPosition) : TradeSimulator :=
  { s with opened := s.opened.upsert p (fun q => if q.symbol = p.symbol then p else q) (by intro q; split <;> simp [*]) }

def openPosition (s : TradeSimulator) (signal : QuantSignal) (timestamp : Timestamp) (entryPriceRaw : ℚ)
    (opportunityScore : ℚ) : TradeSimulator :=
  s.put (position s.config signal timestamp entryPriceRaw opportunityScore)

/-- `self._open.pop(symbol)`. -/
def drop (s : TradeSimulator) (symbol : Symbol) : TradeSimulator :=
  { s with opened := s.opened.delete fun p => p.symbol = symbol.toUpper }

/-- `_close`, where there is a position. -/
def close (s : TradeSimulator) (symbol : Symbol) (timestamp : Timestamp) (exitPriceRaw : ℚ) (reason : ExitReason)
    (exitSignal : Option QuantSignal) : Option Trade × TradeSimulator :=
  match s.getOpen symbol with
  | none => (none, s)
  | some p => (some (p.close s.config timestamp exitPriceRaw reason exitSignal), s.drop symbol)

/-- One bar for an open position: its range first, then the exit. A position without a stop and a target, which the
comparison does not take, is never opened. -/
def checkExit (s : TradeSimulator) (symbol : Symbol) (timestamp : Timestamp) (barHigh barLow : ℚ) :
    Option Trade × TradeSimulator :=
  match s.getOpen symbol with
  | none => (none, s)
  | some p =>
    let s := s.put (p.updateExcursion barHigh barLow)
    match p.stopPrice, p.targetPrice with
    | some stop, some target =>
      match checkBarForExit p.direction stop target barHigh barLow s.config.sameBarResolution with
      | none => (none, s)
      | some outcome => s.close symbol timestamp (if outcome = .stop then stop else target) outcome none
    | _, _ => (none, s)

def forceClose (s : TradeSimulator) (symbol : Symbol) (timestamp : Timestamp) (price : ℚ) (reason : ExitReason) :
    Option Trade × TradeSimulator := s.close symbol timestamp price reason none

def closeOnSignalExit (s : TradeSimulator) (symbol : Symbol) (timestamp : Timestamp) (price : ℚ)
    (exitSignal : QuantSignal) : Option Trade × TradeSimulator :=
  s.close symbol timestamp price .signalExit (some exitSignal)

end TradeSimulator

end TalonX.Backtest
