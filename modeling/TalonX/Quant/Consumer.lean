import Mathlib.Data.List.DropRight
import TalonX.Quant.Aggregation
import TalonX.Quant.Buffer

/-!
# The quant scanner

`QuantScanner`: the ticks of the market stream, from the duplicate check to the buffers.

- `isNewBarTick`: the answer of Redis where there is one, else the recent keys in memory;
- `update1mBuffer`, `updateHtfBuffer`, `updateRegimeBuffer60m`: the minute bar and the two coarse ones;
- `handleMarketTick`: one message, and the frame of closed bars that it hands to `compute_indicators`;
- `Trace`: a run of messages, with the ticks accepted, the frames evaluated and the coarse buckets finalised.

What `compute_indicators` and the gates behind it do with a frame changes no buffer.
-/

set_option autoImplicit false

namespace TalonX.Quant

open Transact

/-- The minute that is forming. -/
structure MinuteAccumulator where
  bucketStart : Timestamp
  openPrice : ℚ
  high : ℚ
  low : ℚ
  close : ℚ
  volume : ℚ
  deriving DecidableEq, Repr

namespace MinuteAccumulator

def start (bucketStart : Timestamp) (price volume : ℚ) : MinuteAccumulator :=
  ⟨bucketStart, price, price, price, price, volume⟩

def add (a : MinuteAccumulator) (price volume : ℚ) : MinuteAccumulator :=
  { a with high := max a.high price, low := min a.low price, close := price, volume := a.volume + volume }

/-- The `add_bar` call of the minute. -/
def write (a : MinuteAccumulator) (symbol : Symbol) : BarWrite :=
  ⟨symbol, a.bucketStart, some a.openPrice, some a.high, some a.low, some a.close, some a.volume, none⟩

end MinuteAccumulator

/-- A finalised bucket as an `add_bar` call. -/
def HtfBucket.write (b : HtfBucket) (symbol : Symbol) : BarWrite :=
  ⟨symbol, b.bucketStart, b.openPrice, b.high, b.low, b.close, some b.volume, none⟩

def MarketTickEvent.subBar (e : MarketTickEvent) : SubBar :=
  ⟨e.timestamp, e.openPrice, e.high, e.low, e.close, e.volume⟩

/-- A message of the stream, and what Redis answers to its `SET … NX` (`none`: no client, or it fails). -/
structure Delivery where
  event : MarketTickEvent
  setNx : Option Bool

structure QuantConfig where
  maxBarsPerSymbol : ℕ
  htfBarIntervalMinutes : ℕ+
  htfMaxBars : ℕ
  rthOnlyHtfSma : Bool
  regime60mBarIntervalMinutes : ℕ+
  regime60mMaxBars : ℕ

structure QuantScanner where
  buffer : RollingBarBuffer
  bufferHtf : RollingBarBuffer
  buffer60m : RollingBarBuffer
  minuteAccumulators : Symbol → Option MinuteAccumulator
  htfAggregator : HtfBarAggregator
  aggregator60m : HtfBarAggregator
  /-- The last minute that a historical bootstrap fed. -/
  bootstrap60mCutoff : Symbol → Option Timestamp
  recentBarKeys : Symbol → List Timestamp
  latestQuotes : Symbol → Option (ℚ × ℚ × Timestamp)
  barsProcessed : ℕ

namespace QuantScanner

def init (config : QuantConfig) : QuantScanner where
  buffer := .empty config.maxBarsPerSymbol
  bufferHtf := .empty config.htfMaxBars
  buffer60m := .empty config.regime60mMaxBars
  minuteAccumulators _ := none
  htfAggregator := .empty config.htfBarIntervalMinutes config.rthOnlyHtfSma
  aggregator60m := .empty config.regime60mBarIntervalMinutes false
  bootstrap60mCutoff _ := none
  recentBarKeys _ := []
  latestQuotes _ := none
  barsProcessed := 0

/-- `deque(maxlen=200)`. -/
def recentBarKeysMax : ℕ := 200

def isNewBarTick (s : QuantScanner) (d : Delivery) : Bool × QuantScanner :=
  match d.setNx with
  | some isNew => (isNew, s)
  | none =>
    let symbol := d.event.symbol.toUpper
    let seen := s.recentBarKeys symbol
    if d.event.timestamp ∈ seen then (false, s)
    else
      let seen := (seen ++ [d.event.timestamp]).rtake recentBarKeysMax
      (true, { s with recentBarKeys := Function.update s.recentBarKeys symbol seen })

variable (eastern : Timestamp → ℕ)

def update1mBuffer (s : QuantScanner) (e : MarketTickEvent) : QuantScanner :=
  match e.close with
  | none => s
  | some price =>
    let symbol := e.symbol.toUpper
    let bucket := floorMinute e.timestamp
    let volume := e.volume.getD 0
    let acc := match s.minuteAccumulators symbol with
      | none => .start bucket price volume
      | some acc => if acc.bucketStart = bucket then acc.add price volume else .start bucket price volume
    { s with
      minuteAccumulators := Function.update s.minuteAccumulators symbol (some acc)
      buffer := s.buffer.addBar eastern (acc.write symbol) }

/-- The bucket that was finalised, and the scanner with it in the buffer. -/
def updateHtfBuffer (s : QuantScanner) (e : MarketTickEvent) : Option HtfBucket × QuantScanner :=
  let symbol := e.symbol.toUpper
  let (finalized, aggregator) := s.htfAggregator.update eastern symbol e.subBar
  (finalized, { s with
    htfAggregator := aggregator
    bufferHtf := finalized.elim s.bufferHtf fun b => s.bufferHtf.addBar eastern (b.write symbol) })

def feed60mBar (s : QuantScanner) (symbol : Symbol) (x : SubBar) : Option HtfBucket × QuantScanner :=
  let symbol := symbol.toUpper
  let (finalized, aggregator) := s.aggregator60m.update eastern symbol x
  (finalized, { s with
    aggregator60m := aggregator
    buffer60m := finalized.elim s.buffer60m fun b => s.buffer60m.addBar eastern (b.write symbol) })

def updateRegimeBuffer60m (s : QuantScanner) (e : MarketTickEvent) : Option HtfBucket × QuantScanner :=
  let symbol := e.symbol.toUpper
  if (s.bootstrap60mCutoff symbol).any fun cutoff => floorMinute e.timestamp ≤ cutoff then (none, s)
  else s.feed60mBar eastern symbol e.subBar

/-- What became of a message: whether its tick was accepted, the frame for `compute_indicators`, and the coarse buckets
that were finalised. -/
structure Handled where
  scanner : QuantScanner
  accepted : Bool
  frame : Option (List Bar)
  htfBar : Option HtfBucket
  bar60m : Option HtfBucket

def Handled.dropped (s : QuantScanner) : Handled := ⟨s, false, none, none, none⟩

/-- The accumulator of the symbol is there, of another minute than the tick. -/
def barJustClosed (s : QuantScanner) (e : MarketTickEvent) : Bool :=
  (s.minuteAccumulators e.symbol.toUpper).any (·.bucketStart ≠ floorMinute e.timestamp)

/-- An accepted tick: the closed bars are read before the tick is added. -/
def acceptTick (s : QuantScanner) (e : MarketTickEvent) : Handled :=
  let closed := s.barJustClosed e
  let frame := if closed then s.buffer.getDataframe e.symbol else none
  let (htfBar, s) := (s.update1mBuffer eastern e).updateHtfBuffer eastern e
  let (bar60m, s) := s.updateRegimeBuffer60m eastern e
  ⟨{ s with barsProcessed := s.barsProcessed + 1 }, true, frame, htfBar, bar60m⟩

def handleMarketTick (s : QuantScanner) (d : Delivery) : Handled :=
  match d.event.eventType with
  | .trade => .dropped s
  | .quote =>
    match d.event.bid, d.event.ask with
    | some bid, some ask =>
      let quotes := Function.update s.latestQuotes d.event.symbol.toUpper (some (bid, ask, d.event.timestamp))
      .dropped { s with latestQuotes := quotes }
    | _, _ => .dropped s
  | .bar =>
    let (isNew, s) := s.isNewBarTick d
    if isNew then s.acceptTick eastern d.event else .dropped s

end QuantScanner

/-! ## Runs -/

/-- A frame that was evaluated, and how many ticks of the symbol had been accepted before the one that led to it. -/
structure Evaluation where
  position : ℕ
  frame : List Bar

structure Trace where
  scanner : QuantScanner
  accepted : Symbol → List MarketTickEvent
  evaluations : Symbol → List Evaluation
  htfBars : Symbol → List HtfBucket
  bars60m : Symbol → List HtfBucket

namespace Trace

variable (eastern : Timestamp → ℕ)

def init (config : QuantConfig) : Trace := ⟨.init config, fun _ => [], fun _ => [], fun _ => [], fun _ => []⟩

def deliver (t : Trace) (d : Delivery) : Trace :=
  let symbol := d.event.symbol.toUpper
  let handled := t.scanner.handleMarketTick eastern d
  let ticks := t.accepted symbol
  let accepted := if handled.accepted then ticks ++ [d.event] else ticks
  let evaluated := handled.frame.elim [] fun frame => [⟨ticks.length, frame⟩]
  { scanner := handled.scanner
    accepted := Function.update t.accepted symbol accepted
    evaluations := Function.update t.evaluations symbol (t.evaluations symbol ++ evaluated)
    htfBars := Function.update t.htfBars symbol (t.htfBars symbol ++ handled.htfBar.toList)
    bars60m := Function.update t.bars60m symbol (t.bars60m symbol ++ handled.bar60m.toList) }

def run (config : QuantConfig) (ds : List Delivery) : Trace := ds.foldl (deliver eastern) (init config)

end Trace

end TalonX.Quant
