import TalonX.Quant.Consumer
import TalonX.Transact.Text

/-!
# The market state of a replay

`feedMarketState`: one historical bar into the buffers and aggregators that the live scanner uses. `Replay`: a run of
bars, with the coarse buckets finalised (`replay_bars`).
-/

set_option autoImplicit false

namespace TalonX.Backtest

open TalonX.Quant

/-- A closed historical bar; all its columns are numbers. -/
structure HistoricalRow where
  timestamp : Timestamp
  openPrice : ℚ
  high : ℚ
  low : ℚ
  close : ℚ
  volume : ℚ
  deriving DecidableEq, Repr

namespace HistoricalRow

def write (eastern : Timestamp → ℕ) (symbol : Symbol) (r : HistoricalRow) : BarWrite :=
  ⟨symbol, r.timestamp, some r.openPrice, some r.high, some r.low, some r.close, some r.volume,
    some (getSession eastern r.timestamp)⟩

def subBar (r : HistoricalRow) : SubBar :=
  ⟨r.timestamp, some r.openPrice, some r.high, some r.low, some r.close, some r.volume⟩

/-- The row as it stands in a buffer. -/
def bar (eastern : Timestamp → ℕ) (r : HistoricalRow) : Bar :=
  ⟨r.timestamp, some r.openPrice, some r.high, some r.low, r.close, some r.volume, getSession eastern r.timestamp⟩

end HistoricalRow

structure MarketState where
  buffer : RollingBarBuffer
  bufferHtf : RollingBarBuffer
  buffer60m : RollingBarBuffer
  htfAggregator : HtfBarAggregator
  aggregator60m : HtfBarAggregator
  lastClose : Symbol → Option ℚ
  lastTimestamp : Symbol → Option Timestamp

namespace MarketState

def init (config : QuantConfig) : MarketState where
  buffer := .empty config.maxBarsPerSymbol
  bufferHtf := .empty config.htfMaxBars
  buffer60m := .empty config.regime60mMaxBars
  htfAggregator := .empty config.htfBarIntervalMinutes config.rthOnlyHtfSma
  aggregator60m := .empty config.regime60mBarIntervalMinutes false
  lastClose _ := none
  lastTimestamp _ := none

/-- `_feed_market_state`: the buckets that the bar finalised, and the state after it. -/
def feedMarketState (eastern : Timestamp → ℕ) (s : MarketState) (symbol : Symbol) (row : HistoricalRow) :
    Option HtfBucket × Option HtfBucket × MarketState :=
  let symbol := symbol.toUpper
  let (finalized, htfAggregator) := s.htfAggregator.update eastern symbol row.subBar
  let (finalized60m, aggregator60m) := s.aggregator60m.update eastern symbol row.subBar
  (finalized, finalized60m,
    { buffer := s.buffer.addBar eastern (row.write eastern symbol)
      bufferHtf := finalized.elim s.bufferHtf fun b => s.bufferHtf.addBar eastern (b.write symbol)
      buffer60m := finalized60m.elim s.buffer60m fun b => s.buffer60m.addBar eastern (b.write symbol)
      htfAggregator := htfAggregator
      aggregator60m := aggregator60m
      lastClose := Function.update s.lastClose symbol (some row.close)
      lastTimestamp := Function.update s.lastTimestamp symbol (some row.timestamp) })

end MarketState

/-- A run of bars of any symbols. -/
structure Replay where
  state : MarketState
  htfBars : Symbol → List HtfBucket
  bars60m : Symbol → List HtfBucket

namespace Replay

variable (eastern : Timestamp → ℕ)

def init (config : QuantConfig) : Replay := ⟨.init config, fun _ => [], fun _ => []⟩

def feed (p : Replay) (x : Symbol × HistoricalRow) : Replay :=
  let symbol := x.1.toUpper
  let (finalized, finalized60m, state) := p.state.feedMarketState eastern x.1 x.2
  { state := state
    htfBars := Function.update p.htfBars symbol (p.htfBars symbol ++ finalized.toList)
    bars60m := Function.update p.bars60m symbol (p.bars60m symbol ++ finalized60m.toList) }

def run (config : QuantConfig) (xs : List (Symbol × HistoricalRow)) : Replay := xs.foldl (feed eastern) (init config)

/-- The bars of a symbol. -/
def barsOf (key : Symbol) (xs : List (Symbol × HistoricalRow)) : List SubBar :=
  (xs.filter (·.1.toUpper = key)).map (·.2.subBar)

variable {eastern} {config : QuantConfig} {key : Symbol}

/-- Each aggregator rolls up the bars of a symbol as if there were no other. -/
structure Follows (eastern : Timestamp → ℕ) (config : QuantConfig) (key : Symbol) (xs : List (Symbol × HistoricalRow))
    (p : Replay) : Prop where
  htfConfig : p.state.htfAggregator.intervalMinutes = config.htfBarIntervalMinutes ∧
    p.state.htfAggregator.rthOnly = config.rthOnlyHtfSma
  config60m : p.state.aggregator60m.intervalMinutes = config.regime60mBarIntervalMinutes ∧
    p.state.aggregator60m.rthOnly = false
  htf : p.state.htfAggregator.accumulators key = formingBucket config.htfBarIntervalMinutes (barsOf key xs)
  forming60m : p.state.aggregator60m.accumulators key = formingBucket config.regime60mBarIntervalMinutes (barsOf key xs)
  htfBars : p.htfBars key = finalizedBars eastern config.htfBarIntervalMinutes config.rthOnlyHtfSma (barsOf key xs)
  bars60m : p.bars60m key = finalizedBars eastern config.regime60mBarIntervalMinutes false (barsOf key xs)

theorem Follows.feed {xs : List (Symbol × HistoricalRow)} {p : Replay} (h : p.Follows eastern config key xs)
    (x : Symbol × HistoricalRow) : (p.feed eastern x).Follows eastern config key (xs ++ [x]) := by
  obtain ⟨⟨hi, hr⟩, ⟨hi', hr'⟩, hf, hf', hb, hb'⟩ := h
  have happend : barsOf key (xs ++ [x]) = barsOf key xs ++ barsOf key [x] := by simp [barsOf]
  unfold Replay.feed MarketState.feedMarketState
  simp only [HtfBarAggregator.update_eq, hi, hr, hi', hr', Transact.toUpper_toUpper]
  by_cases hkey : key = x.1.toUpper
  · subst hkey
    have hone : barsOf x.1.toUpper [x] = [x.2.subBar] := by simp [barsOf]
    rw [hone] at happend
    refine ⟨⟨rfl, rfl⟩, ⟨rfl, rfl⟩, ?_, ?_, ?_, ?_⟩ <;> dsimp only <;> rw [Function.update_self, happend]
    · rw [formingBucket_concat, hf]
    · rw [formingBucket_concat, hf']
    · rw [finalizedBars_concat, hb, hf]
    · rw [finalizedBars_concat, hb', hf']
  · have hnone : barsOf key [x] = [] := by simp [barsOf, Ne.symm hkey]
    rw [hnone, List.append_nil] at happend
    refine ⟨⟨rfl, rfl⟩, ⟨rfl, rfl⟩, ?_, ?_, ?_, ?_⟩ <;> dsimp only <;> rw [Function.update_of_ne hkey, happend]
    · exact hf
    · exact hf'
    · exact hb
    · exact hb'

theorem follows_run (xs : List (Symbol × HistoricalRow)) : (run eastern config xs).Follows eastern config key xs := by
  induction xs using List.reverseRecOn with
  | nil => exact ⟨⟨rfl, rfl⟩, ⟨rfl, rfl⟩, rfl, rfl, rfl, rfl⟩
  | append_singleton xs x ih =>
    rw [run, List.foldl_concat]
    exact ih.feed x

end Replay

end TalonX.Backtest
